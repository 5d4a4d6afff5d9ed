/-
# The request threads of the extension

Every delivery of a request runs in a thread of its own: the metadata check, the
look-up among the processed requests, the request task, the store of its
response. The mutex is held inside one look-up or one store only, so the threads
interleave between these steps. A step names its thread and carries what the
program does not decide: the clock, the outcome of the task and the order in
which the hash map of processed requests is iterated.
-/

import Nobie.Foundation.Bytes
import Nobie.Foundation.Transition
import Nobie.Yeonjang.Protocol

namespace Nobie.Yeonjang

open Foundation

/-! ## Checking a command -/

/-- A target session that is named and is not the running one. -/
def staleTarget (request : Request) (runtimeSessionId : String) : Option String :=
  request.metadata.targetSessionId.filter fun target =>
    rustTrim target ≠ "" && target ≠ runtimeSessionId

/-- `validate_command_metadata`: the rejection of a command, if there is one. -/
def validateCommandMetadata (request : Request) (runtimeSessionId : String) (now : ℤ) :
    Option Response :=
  match staleTarget request runtimeSessionId with
  | some target =>
    some (errorResponse request.id "session_replaced"
      s!"target session {target} is no longer active; current session is {runtimeSessionId}")
  | none =>
    match request.metadata.expiresAt with
    | some expiresAt =>
      if expiresAt ≤ now then
        some (errorResponse request.id "expired_command"
          "expired command rejected before execution")
      else none
    | none => none

/-- A command for the running session, or for none, that has not expired. -/
structure Admissible (request : Request) (runtimeSessionId : String) (now : ℤ) : Prop where
  session : ∀ target, request.metadata.targetSessionId = some target →
    rustTrim target = "" ∨ target = runtimeSessionId
  expiry : ∀ expiresAt, request.metadata.expiresAt = some expiresAt → now < expiresAt

variable {request : Request} {runtimeSessionId : String} {now : ℤ} {iteration : List String}
  {key : String}

theorem validateCommandMetadata_of_admissible (h : Admissible request runtimeSessionId now) :
    validateCommandMetadata request runtimeSessionId now = none := by
  have htarget : staleTarget request runtimeSessionId = none := by
    rw [staleTarget, Option.filter_eq_none_iff]
    intro target hmem
    rcases h.session target hmem with hblank | hsame
    · simp [hblank]
    · simp [hsame]
  rw [validateCommandMetadata, htarget]
  cases hexpiry : request.metadata.expiresAt with
  | none => rfl
  | some expiresAt => simp [h.expiry expiresAt hexpiry]

/-- Every rejection is an error that goes back to the request it rejects. -/
theorem id_of_validateCommandMetadata {response : Response}
    (h : validateCommandMetadata request runtimeSessionId now = some response) :
    response.id = request.id ∧ response.ok = false := by
  unfold validateCommandMetadata at h
  split at h
  · cases h
    exact ⟨rfl, rfl⟩
  · split at h
    · split at h
      · cases h
        exact ⟨rfl, rfl⟩
      · cases h
    · cases h

/-! ## Processed requests -/

structure CachedResponseEntry where
  response : Response
  storedAt : ℤ

/-- The responses of processed requests under their idempotency keys. -/
abbrev ProcessedRequests := OrderedMap String CachedResponseEntry

def processedRequestTtlMs : ℤ := 5 * 60 * 1000

def maxProcessedRequests : ℕ := 512

variable (response : Response) (thread : ℕ)

/-- `clone_response_with_request_id`. -/
def cloneResponseWithRequestId (requestId : Option String) : Response :=
  { response with id := requestId }

@[simp]
theorem cloneResponse_cloneResponse (first second : Option String) :
    cloneResponseWithRequestId (cloneResponseWithRequestId response first) second =
      cloneResponseWithRequestId response second := rfl

theorem cloneResponse_self : cloneResponseWithRequestId response response.id = response := rfl

/-- The entries a clean-up finds young enough. -/
def retained (entries : ProcessedRequests) (now : ℤ) : ProcessedRequests :=
  entries.filter fun _ entry => now - entry.storedAt ≤ processedRequestTtlMs

/-- The keys a clean-up drops for the bound: the oldest of the entries that are
left, in the order of iteration where they are equally old. -/
def evicted (iteration : List String) (entries : ProcessedRequests) : List String :=
  if entries.size ≤ maxProcessedRequests then []
  else
    let ordered := iteration.filterMap fun key =>
      (entries.get? key).map fun entry => (key, entry.storedAt)
    ((ordered.mergeSort fun first second => decide (first.2 ≤ second.2)).take
      (ordered.length - maxProcessedRequests)).map Prod.fst

/-- `prune_processed_requests`. -/
def pruneProcessedRequests (iteration : List String) (entries : ProcessedRequests) (now : ℤ) :
    ProcessedRequests :=
  (evicted iteration (retained entries now)).foldl OrderedMap.erase (retained entries now)

/-- What a clean-up leaves of an entry. -/
theorem get?_pruneProcessedRequests (iteration : List String) (entries : ProcessedRequests)
    (now : ℤ) (key : String) :
    (pruneProcessedRequests iteration entries now).get? key =
      if key ∈ evicted iteration (retained entries now) then none
      else (entries.get? key).filter fun entry => now - entry.storedAt ≤ processedRequestTtlMs := by
  rw [pruneProcessedRequests, OrderedMap.get?_foldl_erase, retained, OrderedMap.get?_filter]

variable {entries : ProcessedRequests} {entry : CachedResponseEntry}

/-- A clean-up writes nothing. -/
theorem get?_of_get?_prune
    (h : (pruneProcessedRequests iteration entries now).get? key = some entry) :
    entries.get? key = some entry := by
  rw [get?_pruneProcessedRequests] at h
  split at h
  · cases h
  · exact (Option.filter_eq_some_iff.mp h).1

/-- The idempotency key of a request, trimmed; a blank key is none. -/
def idempotencyKey (request : Request) : Option String :=
  (request.metadata.idempotencyKey.map rustTrim).filter (· ≠ "")

/-- `replay_cached_response`, with the entries the look-up leaves behind. -/
def replayCachedResponse (iteration : List String) (entries : ProcessedRequests)
    (request : Request) (now : ℤ) : Option Response × ProcessedRequests :=
  match idempotencyKey request with
  | none => (none, entries)
  | some key =>
    let entries := pruneProcessedRequests iteration entries now
    ((entries.get? key).map fun cached =>
      cloneResponseWithRequestId cached.response request.id, entries)

/-- `remember_processed_response`. -/
def rememberProcessedResponse (iteration : List String) (entries : ProcessedRequests)
    (request : Request) (response : Response) (now : ℤ) : ProcessedRequests :=
  match idempotencyKey request with
  | none => entries
  | some key =>
    (pruneProcessedRequests iteration entries now).set key
      { response := cloneResponseWithRequestId response none, storedAt := now }

/-- A look-up writes nothing. -/
theorem get?_of_replay
    (h : (replayCachedResponse iteration entries request now).2.get? key = some entry) :
    entries.get? key = some entry := by
  unfold replayCachedResponse at h
  split at h
  · exact h
  · exact get?_of_get?_prune h

/-- What is replayed is kept under the key of the request. -/
theorem get?_of_replayed {cached : Response}
    (h : (replayCachedResponse iteration entries request now).1 = some cached) :
    ∃ key entry, idempotencyKey request = some key ∧ entries.get? key = some entry ∧
      cloneResponseWithRequestId entry.response request.id = cached := by
  unfold replayCachedResponse at h
  split at h
  · cases h
  · next key hkey =>
    obtain ⟨entry, hentry, hcached⟩ := Option.map_eq_some_iff.mp h
    exact ⟨key, entry, hkey, get?_of_get?_prune hentry, hcached⟩

/-- A store writes under the key of its request only. -/
theorem get?_of_remember {response : Response} (hkey : idempotencyKey request ≠ some key)
    (h : (rememberProcessedResponse iteration entries request response now).get? key =
      some entry) : entries.get? key = some entry := by
  unfold rememberProcessedResponse at h
  split at h
  · exact h
  · next other hother =>
    rw [OrderedMap.get?_set_of_ne] at h
    · exact get?_of_get?_prune h
    · rintro rfl
      exact hkey hother

/-! ## The request task -/

/-- How a request task ends: the dispatch returns a result or an error text, or
its thread panics. -/
inductive TaskOutcome
  | dispatched (result : Except String Json)
  | panicked

/-- `handle_request`. -/
def handleRequest (request : Request) : Except String Json → Response
  | .ok result => okResponse request.id result
  | .error error => errorResponse request.id "request_failed" error

/-- `spawn_request_task(request).join()`, with the answer to a panic. -/
def joinRequestTask (request : Request) : TaskOutcome → Response
  | .dispatched result => handleRequest request result
  | .panicked => errorResponse none "request_failed" "request thread panicked"

/-! ## Threads -/

inductive Phase
  | received | admitted | missed | running
  | joined (response : Response)
  | answered (response : Response)

/-- After the metadata check: a rejection is the answer. -/
def afterCheck : Option Response → Phase
  | some rejection => .answered rejection
  | none => .admitted

/-- After the look-up: a cached response is the answer. -/
def afterLookUp : Option Response → Phase
  | some cached => .answered cached
  | none => .missed

structure Thread where
  request : Request
  phase : Phase

/-- The threads and the processed requests, with the tasks that were started and
the responses they returned. -/
structure Extension where
  processed : ProcessedRequests := ∅
  threads : ℕ → Option Thread := fun _ => none
  started : List Request := []
  returned : List (Request × Response) := []

variable (state : Extension)

namespace Extension

/-- The extension before the first delivery. -/
def start : Extension := {}

def setThread (thread : ℕ) (request : Request) (phase : Phase) : Extension :=
  { state with threads := Function.update state.threads thread (some { request, phase }) }

theorem threads_setThread (thread : ℕ) (request : Request) (phase : Phase) (other : ℕ) :
    (state.setThread thread request phase).threads other =
      if other = thread then some ⟨request, phase⟩ else state.threads other :=
  Function.update_apply ..

/-- A look-up cleans up first, whatever it finds. -/
def lookUp (thread : ℕ) (request : Request) (now : ℤ) (iteration : List String) : Extension :=
  let (cached, processed) := replayCachedResponse iteration state.processed request now
  { state with processed }.setThread thread request (afterLookUp cached)

def remember (thread : ℕ) (request : Request) (response : Response) (now : ℤ)
    (iteration : List String) : Extension :=
  { state with
      processed := rememberProcessedResponse iteration state.processed request response now
    }.setThread thread request (.answered response)

end Extension

/-- One step of a thread of `run_connection_loop`. -/
inductive ThreadStep
  | deliver (thread : ℕ) (request : Request)
  | validate (thread : ℕ) (now : ℤ)
  | lookUp (thread : ℕ) (now : ℤ) (iteration : List String)
  | spawn (thread : ℕ)
  | join (thread : ℕ) (outcome : TaskOutcome)
  | remember (thread : ℕ) (now : ℤ) (iteration : List String)

/-- The step taken, if the thread is where the step begins and the order of
iteration is one of the keys that are there to iterate. -/
def threadStep? (runtimeSessionId : String) (state : Extension) : ThreadStep → Option Extension
  | .deliver thread request =>
    match state.threads thread with
    | none => some (state.setThread thread request .received)
    | some _ => none
  | .validate thread now =>
    match state.threads thread with
    | some ⟨request, .received⟩ =>
      some (state.setThread thread request
        (afterCheck (validateCommandMetadata request runtimeSessionId now)))
    | _ => none
  | .lookUp thread now iteration =>
    match state.threads thread with
    | some ⟨request, .admitted⟩ =>
      if iteration.isPerm (retained state.processed now).keys then
        some (state.lookUp thread request now iteration)
      else none
    | _ => none
  | .spawn thread =>
    match state.threads thread with
    | some ⟨request, .missed⟩ =>
      some ({ state with started := state.started ++ [request] }.setThread thread request .running)
    | _ => none
  | .join thread outcome =>
    match state.threads thread with
    | some ⟨request, .running⟩ =>
      let response := joinRequestTask request outcome
      some ({ state with returned := state.returned ++ [(request, response)] }.setThread thread
        request (.joined response))
    | _ => none
  | .remember thread now iteration =>
    match state.threads thread with
    | some ⟨request, .joined response⟩ =>
      if iteration.isPerm (retained state.processed now).keys then
        some (state.remember thread request response now iteration)
      else none
    | _ => none

/-- What each step can do. -/
theorem threadStep?_cases {state next : Extension} {step : ThreadStep}
    (h : threadStep? runtimeSessionId state step = some next) :
    (∃ thread request, step = .deliver thread request ∧ state.threads thread = none ∧
      next = state.setThread thread request .received) ∨
    (∃ thread now request, step = .validate thread now ∧
      state.threads thread = some ⟨request, .received⟩ ∧
      next = state.setThread thread request
        (afterCheck (validateCommandMetadata request runtimeSessionId now))) ∨
    (∃ thread now iteration request, step = .lookUp thread now iteration ∧
      state.threads thread = some ⟨request, .admitted⟩ ∧
      next = state.lookUp thread request now iteration) ∨
    (∃ thread request, step = .spawn thread ∧ state.threads thread = some ⟨request, .missed⟩ ∧
      next = { state with started := state.started ++ [request] }.setThread thread request
        .running) ∨
    (∃ thread outcome request, step = .join thread outcome ∧
      state.threads thread = some ⟨request, .running⟩ ∧
      next = { state with returned := state.returned ++
        [(request, joinRequestTask request outcome)] }.setThread thread request
          (.joined (joinRequestTask request outcome))) ∨
    (∃ thread now iteration request response, step = .remember thread now iteration ∧
      state.threads thread = some ⟨request, .joined response⟩ ∧
      next = state.remember thread request response now iteration) := by
  cases step with
  | deliver thread request =>
    simp only [threadStep?] at h
    split at h
    · next hthread => exact .inl ⟨thread, request, rfl, hthread, (Option.some.inj h).symm⟩
    · cases h
  | validate thread now =>
    simp only [threadStep?] at h
    split at h
    · next request hthread =>
      exact .inr (.inl ⟨thread, now, request, rfl, hthread, (Option.some.inj h).symm⟩)
    · cases h
  | lookUp thread now iteration =>
    simp only [threadStep?] at h
    split at h
    · next request hthread =>
      split at h
      · exact .inr (.inr (.inl
          ⟨thread, now, iteration, request, rfl, hthread, (Option.some.inj h).symm⟩))
      · cases h
    · cases h
  | spawn thread =>
    simp only [threadStep?] at h
    split at h
    · next request hthread =>
      exact .inr (.inr (.inr (.inl ⟨thread, request, rfl, hthread, (Option.some.inj h).symm⟩)))
    · cases h
  | join thread outcome =>
    simp only [threadStep?] at h
    split at h
    · next request hthread =>
      exact .inr (.inr (.inr (.inr (.inl
        ⟨thread, outcome, request, rfl, hthread, (Option.some.inj h).symm⟩))))
    · cases h
  | remember thread now iteration =>
    simp only [threadStep?] at h
    split at h
    · next request response hthread =>
      split at h
      · exact .inr (.inr (.inr (.inr (.inr
          ⟨thread, now, iteration, request, response, rfl, hthread, (Option.some.inj h).symm⟩))))
      · cases h
    · cases h

/-! ## One execution for an idempotency key

The processed requests keep a repeated delivery from running its task again as long as no
delivery looks up a key while another one is between its own look-up and its store. -/

namespace Extension

/-- The tasks that were started for a key. -/
def startedFor (state : Extension) (key : String) : List Request :=
  state.started.filter fun request => idempotencyKey request = some key

/-- The responses the tasks for a key returned. -/
def returnedFor (state : Extension) (key : String) : List (Request × Response) :=
  state.returned.filter fun entry => idempotencyKey entry.1 = some key

end Extension

/-- The task for a key ran at most once, and every answer to a delivery with the
key is the response of that run, addressed to the delivery. -/
structure AtMostOnce (key : String) (state : Extension) : Prop where
  execution : (state.startedFor key).length ≤ 1
  answer : ∀ thread request response,
    state.threads thread = some ⟨request, .answered response⟩ →
    idempotencyKey request = some key →
    ∃ worker task, state.startedFor key = [worker] ∧ state.returnedFor key = [(worker, task)] ∧
      response = cloneResponseWithRequestId task request.id

/-- No delivery with the key is past its look-up. -/
def Untouched (key : String) (state : Extension) : Prop :=
  state.startedFor key = [] ∧ ∀ thread request,
    state.threads thread = some ⟨request, .missed⟩ → idempotencyKey request ≠ some key

/-- The entry of a key is there and outlives the clean-up of a look-up. -/
def Survives (key : String) (state : Extension) (now : ℤ) (iteration : List String) : Prop :=
  ∃ entry, state.processed.get? key = some entry ∧
    now - entry.storedAt ≤ processedRequestTtlMs ∧
    key ∉ evicted iteration (retained state.processed now)

/-- The steps that do not part the look-up of a key from its store: a delivery
with the key passes the metadata check, it is looked up before any other was or
while the stored entry is there, and the task does not panic. -/
def Undivided (runtimeSessionId key : String) (state : Extension) : ThreadStep → Prop
  | .validate thread now => ∀ request, state.threads thread = some ⟨request, .received⟩ →
      idempotencyKey request = some key → Admissible request runtimeSessionId now
  | .lookUp thread now iteration => ∀ request,
      state.threads thread = some ⟨request, .admitted⟩ →
      idempotencyKey request = some key → Untouched key state ∨ Survives key state now iteration
  | .join thread .panicked => ∀ request, state.threads thread = some ⟨request, .running⟩ →
      idempotencyKey request = some key → request.id = none
  | _ => True

/-! ## The course of a key -/

/-- A thread that has not looked its request up yet. -/
def Phase.Waiting (phase : Phase) : Prop := phase = .received ∨ phase = .admitted

/-- What the started and returned tasks of a key are while its one worker is
between the look-up and the store. -/
def Worker (request : Request) (started : List Request) (returned : List (Request × Response)) :
    Phase → Prop
  | .missed => started = [] ∧ returned = []
  | .running => started = [request] ∧ returned = []
  | .joined response =>
    started = [request] ∧ returned = [(request, response)] ∧ response.id = request.id
  | _ => False

/-- Where the deliveries of a key are: none past its look-up, one at work, or its
response stored. -/
inductive Course (key : String) (state : Extension) : Prop
  | untouched
      (threads : ∀ thread request phase, state.threads thread = some ⟨request, phase⟩ →
        idempotencyKey request = some key → phase.Waiting)
      (processed : state.processed.get? key = none)
      (started : state.startedFor key = []) (returned : state.returnedFor key = [])
  | working (worker : ℕ) (request : Request) (phase : Phase)
      (thread : state.threads worker = some ⟨request, phase⟩)
      (carries : idempotencyKey request = some key)
      (work : Worker request (state.startedFor key) (state.returnedFor key) phase)
      (others : ∀ thread request phase, thread ≠ worker →
        state.threads thread = some ⟨request, phase⟩ →
        idempotencyKey request = some key → phase.Waiting)
      (processed : state.processed.get? key = none)
  | stored (worker : Request) (task : Response)
      (started : state.startedFor key = [worker])
      (returned : state.returnedFor key = [(worker, task)])
      (processed : ∀ entry, state.processed.get? key = some entry →
        entry.response = cloneResponseWithRequestId task none)
      (threads : ∀ thread request phase, state.threads thread = some ⟨request, phase⟩ →
        idempotencyKey request = some key →
        phase.Waiting ∨ phase = .answered (cloneResponseWithRequestId task request.id))

theorem Course.start (key : String) : Course key .start :=
  .untouched (fun _ _ _ h => absurd h (by simp [Extension.start])) rfl rfl rfl

theorem Phase.Waiting.not_answered {response : Response} : ¬ (Phase.answered response).Waiting := by
  rintro (h | h) <;> exact Phase.noConfusion h

variable {key : String} {state next : Extension} {thread : ℕ} {request : Request} {phase : Phase}

/-- Wherever a key is in its course, its task ran at most once. -/
theorem Course.atMostOnce (h : Course key state) : AtMostOnce key state := by
  cases h with
  | untouched threads processed started returned =>
    refine ⟨by simp [started], fun thread request response hthread hkey => ?_⟩
    exact absurd (threads _ _ _ hthread hkey) Phase.Waiting.not_answered
  | working worker request phase thread carries work others processed =>
    refine ⟨?_, fun other request' response hthread hkey => ?_⟩
    · cases phase with
      | missed => simp [work.1]
      | running => simp [work.1]
      | joined response => simp [work.1]
      | received => exact work.elim
      | admitted => exact work.elim
      | answered response => exact work.elim
    · by_cases hworker : other = worker
      · rw [hworker, thread, Option.some.injEq, Thread.mk.injEq] at hthread
        rw [hthread.2] at work
        exact work.elim
      · exact absurd (others _ _ _ hworker hthread hkey) Phase.Waiting.not_answered
  | stored worker task started returned processed threads =>
    refine ⟨by simp [started], fun thread request response hthread hkey => ?_⟩
    rcases threads _ _ _ hthread hkey with hwaiting | hanswered
    · exact absurd hwaiting Phase.Waiting.not_answered
    · exact ⟨worker, task, started, returned, Phase.answered.inj hanswered⟩

/-! ## One step -/

/-- A step of another request: the threads and the logs of the key are as before
and the processed requests gain nothing under it. -/
theorem Course.frame (h : Course key state)
    (hthreads : ∀ thread request phase, idempotencyKey request = some key →
      (next.threads thread = some ⟨request, phase⟩ ↔ state.threads thread = some ⟨request, phase⟩))
    (hstarted : next.startedFor key = state.startedFor key)
    (hreturned : next.returnedFor key = state.returnedFor key)
    (hprocessed : ∀ entry, next.processed.get? key = some entry →
      state.processed.get? key = some entry) : Course key next := by
  have hnone (hbefore : state.processed.get? key = none) : next.processed.get? key = none := by
    rw [Option.eq_none_iff_forall_ne_some]
    intro entry hentry
    rw [hprocessed entry hentry] at hbefore
    cases hbefore
  cases h with
  | untouched threads processed started returned =>
    exact .untouched (fun thread request phase hthread hkey =>
      threads thread request phase ((hthreads _ _ _ hkey).mp hthread) hkey)
      (hnone processed) (hstarted.trans started) (hreturned.trans returned)
  | working worker request phase thread carries work others processed =>
    refine .working worker request phase ((hthreads _ _ _ carries).mpr thread) carries ?_
      (fun thread request phase hne hthread hkey =>
        others thread request phase hne ((hthreads _ _ _ hkey).mp hthread) hkey)
      (hnone processed)
    rwa [hstarted, hreturned]
  | stored worker task started returned processed threads =>
    exact .stored worker task (hstarted.trans started) (hreturned.trans returned)
      (fun entry hentry => processed entry (hprocessed entry hentry))
      (fun thread request phase hthread hkey =>
        threads thread request phase ((hthreads _ _ _ hkey).mp hthread) hkey)

/-- The thread of a request without the key is no thread of the key. -/
theorem threads_setThread_iff (hkey : idempotencyKey request ≠ some key)
    (hbefore : ∀ phase request', state.threads thread = some ⟨request', phase⟩ →
      idempotencyKey request' ≠ some key) (phase : Phase) (other : ℕ) (request' : Request)
    (phase' : Phase) (hkey' : idempotencyKey request' = some key) :
    (state.setThread thread request phase).threads other = some ⟨request', phase'⟩ ↔
      state.threads other = some ⟨request', phase'⟩ := by
  rw [Extension.threads_setThread]
  split
  · next hother =>
    subst hother
    constructor
    · intro heq
      rw [Option.some.injEq, Thread.mk.injEq] at heq
      exact absurd hkey' (heq.1 ▸ hkey)
    · intro heq
      exact absurd hkey' (hbefore _ _ heq)
  · rfl

/-- A delivery that waits for its look-up leaves the course of every key. -/
theorem Course.setWaiting (h : Course key state)
    (hbefore : ∀ request phase, state.threads thread = some ⟨request, phase⟩ → phase.Waiting)
    (hphase : phase.Waiting) : Course key (state.setThread thread request phase) := by
  have hthread (other : ℕ) (request' : Request) (phase' : Phase)
      (heq : (state.setThread thread request phase).threads other = some ⟨request', phase'⟩) :
      phase'.Waiting ∨ state.threads other = some ⟨request', phase'⟩ := by
    rw [Extension.threads_setThread] at heq
    split at heq
    · rw [Option.some.injEq, Thread.mk.injEq] at heq
      exact Or.inl (heq.2 ▸ hphase)
    · exact Or.inr heq
  cases h with
  | untouched threads processed started returned =>
    refine .untouched (fun other request' phase' heq hkey => ?_) processed started returned
    exact (hthread _ _ _ heq).elim id fun hold => threads _ _ _ hold hkey
  | working worker workerRequest workerPhase hworker carries work others processed =>
    have hne : worker ≠ thread := by
      rintro rfl
      rcases hbefore _ _ hworker with rfl | rfl
      · exact work
      · exact work
    refine .working worker workerRequest workerPhase ?_ carries work
      (fun other request' phase' hother heq hkey => ?_) processed
    · rw [Extension.threads_setThread, if_neg hne, hworker]
    · exact (hthread _ _ _ heq).elim id fun hold => others _ _ _ hother hold hkey
  | stored worker task started returned processed threads =>
    refine .stored worker task started returned processed (fun other request' phase' heq hkey => ?_)
    exact (hthread _ _ _ heq).elim Or.inl fun hold => threads _ _ _ hold hkey

/-- A look-up under the key, before any other or with the entry still there. -/
theorem Course.lookUp (h : Course key state) {now : ℤ} {iteration : List String}
    (hkey : idempotencyKey request = some key)
    (hcondition : Untouched key state ∨ Survives key state now iteration) :
    Course key (state.lookUp thread request now iteration) := by
  cases h with
  | untouched threads processed started returned =>
    have hmiss : (pruneProcessedRequests iteration state.processed now).get? key = none := by
      rw [get?_pruneProcessedRequests, processed]
      split <;> rfl
    have hnext : state.lookUp thread request now iteration =
        { state with
          processed := pruneProcessedRequests iteration state.processed now
        }.setThread thread request .missed := by
      simp [Extension.lookUp, replayCachedResponse, hkey, hmiss, afterLookUp]
    rw [hnext]
    refine .working thread request .missed ?_ hkey ⟨started, returned⟩ ?_ hmiss
    · rw [Extension.threads_setThread, if_pos rfl]
    · intro other request' phase' hne heq hkey'
      rw [Extension.threads_setThread, if_neg hne] at heq
      exact threads _ _ _ heq hkey'
  | working worker workerRequest workerPhase hworker carries work others processed =>
    exfalso
    rcases hcondition with ⟨hstarted, hmissed⟩ | ⟨entry, hentry, -⟩
    · cases workerPhase with
      | missed => exact hmissed _ _ hworker carries
      | running => simp [hstarted, Worker] at work
      | joined response => simp [hstarted, Worker] at work
      | received => exact work
      | admitted => exact work
      | answered response => exact work
    · rw [processed] at hentry
      cases hentry
  | stored worker task started returned processed threads =>
    rcases hcondition with ⟨hstarted, -⟩ | ⟨entry, hentry, hfresh, hkept⟩
    · rw [started] at hstarted
      cases hstarted
    have hhit : (pruneProcessedRequests iteration state.processed now).get? key = some entry := by
      rw [get?_pruneProcessedRequests, if_neg hkept, hentry]
      simp [Option.filter, hfresh]
    have hnext : state.lookUp thread request now iteration =
        { state with
          processed := pruneProcessedRequests iteration state.processed now
        }.setThread thread request
          (.answered (cloneResponseWithRequestId entry.response request.id)) := by
      simp [Extension.lookUp, replayCachedResponse, hkey, hhit, afterLookUp]
    rw [hnext]
    refine .stored worker task started returned
      (fun entry hentry => processed entry (get?_of_get?_prune hentry)) ?_
    intro other request' phase' heq hkey'
    rw [Extension.threads_setThread] at heq
    split at heq
    · rw [Option.some.injEq, Thread.mk.injEq] at heq
      obtain ⟨rfl, rfl⟩ := heq
      right
      rw [processed entry hentry, cloneResponse_cloneResponse]
    · exact threads _ _ _ heq hkey'

/-- The one worker of a key, wherever one of its threads is between the look-up
and the store. -/
theorem Course.worker (h : Course key state)
    (hthread : state.threads thread = some ⟨request, phase⟩)
    (hkey : idempotencyKey request = some key)
    (hphase : ¬ phase.Waiting ∧ ∀ response, phase ≠ .answered response) :
    Worker request (state.startedFor key) (state.returnedFor key) phase ∧
      state.processed.get? key = none ∧
      ∀ other request phase, other ≠ thread → state.threads other = some ⟨request, phase⟩ →
        idempotencyKey request = some key → phase.Waiting := by
  cases h with
  | untouched threads processed started returned =>
    exact absurd (threads _ _ _ hthread hkey) hphase.1
  | working worker workerRequest workerPhase hworker carries work others processed =>
    by_cases hsame : thread = worker
    · subst hsame
      rw [hworker, Option.some.injEq, Thread.mk.injEq] at hthread
      obtain ⟨rfl, rfl⟩ := hthread
      exact ⟨work, processed, others⟩
    · exact absurd (others _ _ _ hsame hthread hkey) hphase.1
  | stored worker task started returned processed threads =>
    rcases threads _ _ _ hthread hkey with hwaiting | hanswered
    · exact absurd hwaiting hphase.1
    · exact absurd hanswered (hphase.2 _)

/-- The worker of a key takes its next step towards the store. -/
theorem Course.advance (hkey : idempotencyKey request = some key)
    (hothers : ∀ other request phase, other ≠ thread →
      state.threads other = some ⟨request, phase⟩ → idempotencyKey request = some key →
      phase.Waiting) (hprocessed : next.processed.get? key = none)
    (hthreads : next.threads = state.threads)
    (hwork : Worker request (next.startedFor key) (next.returnedFor key) phase) :
    Course key (next.setThread thread request phase) := by
  refine .working thread request phase ?_ hkey hwork ?_ hprocessed
  · rw [Extension.threads_setThread, if_pos rfl]
  · intro other request' phase' hne heq hkey'
    rw [Extension.threads_setThread, if_neg hne, hthreads] at heq
    exact hothers _ _ _ hne heq hkey'

theorem startedFor_append (state : Extension) (hkey : idempotencyKey request = some key) :
    { state with started := state.started ++ [request] }.startedFor key =
      state.startedFor key ++ [request] := by
  simp [Extension.startedFor, hkey]

theorem startedFor_append_of_ne (state : Extension) (hkey : idempotencyKey request ≠ some key) :
    { state with started := state.started ++ [request] }.startedFor key = state.startedFor key := by
  simp [Extension.startedFor, hkey]

theorem returnedFor_append (state : Extension) (response : Response)
    (hkey : idempotencyKey request = some key) :
    { state with returned := state.returned ++ [(request, response)] }.returnedFor key =
      state.returnedFor key ++ [(request, response)] := by
  simp [Extension.returnedFor, hkey]

theorem returnedFor_append_of_ne (state : Extension) (response : Response)
    (hkey : idempotencyKey request ≠ some key) :
    { state with returned := state.returned ++ [(request, response)] }.returnedFor key =
      state.returnedFor key := by
  simp [Extension.returnedFor, hkey]

/-- A task that does not panic answers the request it was given. -/
theorem id_joinRequestTask {outcome : TaskOutcome} (h : outcome = .panicked → request.id = none) :
    (joinRequestTask request outcome).id = request.id := by
  cases outcome with
  | dispatched result => cases result <;> rfl
  | panicked => exact (h rfl).symm

/-- A step of a thread whose request does not carry the key. -/
theorem Course.other {middle : Extension} {before after : Phase} (h : Course key state)
    (hthread : state.threads thread = some ⟨request, before⟩)
    (hkey : idempotencyKey request ≠ some key) (hthreads : middle.threads = state.threads)
    (hstarted : middle.startedFor key = state.startedFor key)
    (hreturned : middle.returnedFor key = state.returnedFor key)
    (hprocessed : ∀ entry, middle.processed.get? key = some entry →
      state.processed.get? key = some entry) :
    Course key (middle.setThread thread request after) := by
  have hmiddle : Course key middle := h.frame (by simp [hthreads]) hstarted hreturned hprocessed
  refine hmiddle.frame (threads_setThread_iff hkey ?_ after) rfl rfl fun _ hentry => hentry
  intro phase request' heq
  rw [hthreads, hthread, Option.some.injEq, Thread.mk.injEq] at heq
  exact heq.1 ▸ hkey

/-- Every step that does not part a look-up from its store keeps the course. -/
theorem Course.step {runtimeSessionId : String} {step : ThreadStep} (h : Course key state)
    (hcondition : Undivided runtimeSessionId key state step)
    (htaken : threadStep? runtimeSessionId state step = some next) : Course key next := by
  obtain ⟨thread, request, rfl, hthread, rfl⟩ | ⟨thread, now, request, rfl, hthread, rfl⟩ |
    ⟨thread, now, iteration, request, rfl, hthread, rfl⟩ | ⟨thread, request, rfl, hthread, rfl⟩ |
    ⟨thread, outcome, request, rfl, hthread, rfl⟩ |
    ⟨thread, now, iteration, request, response, rfl, hthread, rfl⟩ := threadStep?_cases htaken
  · -- a delivery arrives
    refine h.setWaiting (fun request phase heq => ?_) (Or.inl rfl)
    rw [hthread] at heq
    cases heq
  · -- the metadata check
    by_cases hkey : idempotencyKey request = some key
    · rw [validateCommandMetadata_of_admissible (hcondition request hthread hkey)]
      refine h.setWaiting (fun request' phase heq => ?_) (Or.inr rfl)
      rw [hthread, Option.some.injEq, Thread.mk.injEq] at heq
      exact Or.inl heq.2.symm
    · exact h.other hthread hkey rfl rfl rfl fun _ hentry => hentry
  · -- the look-up
    by_cases hkey : idempotencyKey request = some key
    · exact h.lookUp hkey (hcondition request hthread hkey)
    · exact h.other hthread hkey rfl rfl rfl fun _ hentry => get?_of_replay hentry
  · -- the task starts
    by_cases hkey : idempotencyKey request = some key
    · obtain ⟨⟨hstarted, hreturned⟩, hprocessed, hothers⟩ :=
        h.worker hthread hkey ⟨by simp [Phase.Waiting], by simp⟩
      refine Course.advance hkey hothers hprocessed rfl ⟨?_, hreturned⟩
      rw [startedFor_append state hkey, hstarted, List.nil_append]
    · exact h.other hthread hkey rfl (startedFor_append_of_ne state hkey) rfl
        fun _ hentry => hentry
  · -- the task ends
    by_cases hkey : idempotencyKey request = some key
    · obtain ⟨⟨hstarted, hreturned⟩, hprocessed, hothers⟩ :=
        h.worker hthread hkey ⟨by simp [Phase.Waiting], by simp⟩
      have hid : (joinRequestTask request outcome).id = request.id := by
        refine id_joinRequestTask fun hpanicked => ?_
        subst hpanicked
        exact hcondition request hthread hkey
      refine Course.advance hkey hothers hprocessed rfl ⟨hstarted, ?_, hid⟩
      rw [returnedFor_append state _ hkey, hreturned, List.nil_append]
    · exact h.other hthread hkey rfl rfl (returnedFor_append_of_ne state _ hkey)
        fun _ hentry => hentry
  · -- the response is stored and the delivery answered
    by_cases hkey : idempotencyKey request = some key
    · obtain ⟨⟨hstarted, hreturned, hid⟩, -, hothers⟩ :=
        h.worker hthread hkey ⟨by simp [Phase.Waiting], by simp⟩
      refine .stored request response hstarted hreturned (fun entry hentry => ?_) ?_
      · simp only [Extension.remember, Extension.setThread, rememberProcessedResponse, hkey,
          OrderedMap.get?_set_self, Option.some.injEq] at hentry
        rw [← hentry]
      · intro other request' phase' heq hkey'
        rw [Extension.remember, Extension.threads_setThread] at heq
        split at heq
        · rw [Option.some.injEq, Thread.mk.injEq] at heq
          obtain ⟨rfl, rfl⟩ := heq
          right
          rw [← hid, cloneResponse_self]
        · next hne => exact Or.inl (hothers _ _ _ hne heq hkey')
    · exact h.other hthread hkey rfl rfl rfl fun _ hentry => get?_of_remember hkey hentry

/-! ## Runs -/

/-- In every run of the request threads in which no step parts a look-up of the
key from its store, the task for the key runs at most once and every answer to a
delivery with the key is the response of that run. -/
theorem atMostOnce_of_undivided {runtimeSessionId key : String} {steps : List ThreadStep}
    {state : Extension}
    (run : Run (Meeting (Undivided runtimeSessionId key) (Takes (threadStep? runtimeSessionId)))
      .start steps state) :
    AtMostOnce key state :=
  (run.invariant_of_meeting (fun _ _ _ hcourse hcondition htaken =>
    hcourse.step hcondition htaken) (Course.start key)).atMostOnce

/-- A delivery of one capture command. -/
def captureDelivery (id : String) : Request where
  id := some id
  method := "screen.capture"
  params := .obj []
  metadata := { idempotencyKey := some "idem-1" }

theorem admissible_captureDelivery (id : String) : Admissible (captureDelivery id) "session" 0 :=
  ⟨by simp [captureDelivery], by simp [captureDelivery]⟩

/-- A delivery and its duplicate one after the other: the first one runs the
task, the second one is answered from the processed requests. -/
theorem duplicateDelivery_replayed :
    ∃ state, AtMostOnce "idem-1" state ∧ (state.startedFor "idem-1").length = 1 ∧
      state.threads 1 = some ⟨captureDelivery "delivery-2",
        .answered (okResponse (some "delivery-2") (.bool true))⟩ := by
  have run : Run (Meeting (Undivided "session" "idem-1") (Takes (threadStep? "session")))
      .start [] .start := .start _
  have run := run.extend (.deliver 0 (captureDelivery "delivery-1")) ⟨trivial, rfl⟩
  have run := run.extend (.validate 0 0) ⟨by rintro _ ⟨⟩ -; exact admissible_captureDelivery _, rfl⟩
  have run := run.extend (.lookUp 0 0 [])
    ⟨(by
      rintro _ ⟨⟩ -
      refine Or.inl ⟨rfl, fun thread request hthread => ?_⟩
      rcases thread with _ | thread <;> cases hthread), rfl⟩
  have run := run.extend (.spawn 0) ⟨trivial, rfl⟩
  have run := run.extend (.join 0 (.dispatched (.ok (.bool true)))) ⟨trivial, rfl⟩
  have run := run.extend (.remember 0 0 []) ⟨trivial, rfl⟩
  have run := run.extend (.deliver 1 (captureDelivery "delivery-2")) ⟨trivial, rfl⟩
  have run := run.extend (.validate 1 0) ⟨by rintro _ ⟨⟩ -; exact admissible_captureDelivery _, rfl⟩
  have run := run.extend (.lookUp 1 0 ["idem-1"])
    ⟨(by
      rintro _ ⟨⟩ -
      exact Or.inr ⟨_, rfl, by decide, by decide⟩), rfl⟩
  exact ⟨_, atMostOnce_of_undivided run, by decide, rfl⟩

/-- Two deliveries of the command that both look its key up before either has
stored a response. -/
def crossedDeliveries : List ThreadStep :=
  [.deliver 0 (captureDelivery "delivery-1"), .deliver 1 (captureDelivery "delivery-2"),
    .validate 0 0, .validate 1 0, .lookUp 0 0 [], .lookUp 1 0 [], .spawn 0, .spawn 1]

/-- The task runs twice when a duplicate arrives while the first task runs. -/
theorem crossedDeliveries_execute_twice :
    ∃ state, execute (threadStep? "session") .start crossedDeliveries = some state ∧
      (state.startedFor "idem-1").length = 2 ∧ ¬ AtMostOnce "idem-1" state := by
  have htwo : ((execute (threadStep? "session") .start crossedDeliveries).map fun state =>
      (state.startedFor "idem-1").length) = some 2 := by decide
  obtain ⟨state, hstate, hlength⟩ := Option.map_eq_some_iff.mp htwo
  refine ⟨state, hstate, hlength, fun h => ?_⟩
  have hone := h.execution
  omega

/-! ## Whose response an answer is -/

variable {runtimeSessionId : String} {middle : Extension} {step : ThreadStep}
  {returned more : List (Request × Response)}

/-- What a phase may carry: the response of the own task, the rejection of the own request, or
what a task under the same key returned, addressed to the request. -/
def Phase.Backed (runtimeSessionId : String) (returned : List (Request × Response))
    (request : Request) : Phase → Prop
  | .joined response => (request, response) ∈ returned
  | .answered response =>
    (request, response) ∈ returned ∨
      (∃ now, validateCommandMetadata request runtimeSessionId now = some response) ∨
      ∃ worker task key, (worker, task) ∈ returned ∧ idempotencyKey worker = some key ∧
        idempotencyKey request = some key ∧ response = cloneResponseWithRequestId task request.id
  | _ => True

/-- Every response that is kept or given came from a task, under the key it is kept under. -/
structure AnswersBacked (runtimeSessionId : String) (state : Extension) : Prop where
  kept : ∀ key entry, state.processed.get? key = some entry → ∃ worker task,
    (worker, task) ∈ state.returned ∧ idempotencyKey worker = some key ∧
      entry.response = cloneResponseWithRequestId task none
  given : ∀ thread request phase, state.threads thread = some ⟨request, phase⟩ →
    phase.Backed runtimeSessionId state.returned request

theorem Phase.Backed.mono (h : phase.Backed runtimeSessionId returned request)
    (hmore : returned ⊆ more) : phase.Backed runtimeSessionId more request := by
  cases phase with
  | joined response => exact hmore h
  | answered response =>
    rcases h with hown | hrejected | ⟨worker, task, key, htask, hrest⟩
    · exact .inl (hmore hown)
    · exact .inr (.inl hrejected)
    · exact .inr (.inr ⟨worker, task, key, hmore htask, hrest⟩)
  | received | admitted | missed | running => trivial

/-- A step sets one thread, and only adds to what was returned. -/
theorem AnswersBacked.setThread (h : AnswersBacked runtimeSessionId state)
    (hthreads : middle.threads = state.threads) (hmore : state.returned ⊆ middle.returned)
    (hkept : ∀ key entry, middle.processed.get? key = some entry →
      state.processed.get? key = some entry ∨ ∃ worker task, (worker, task) ∈ middle.returned ∧
        idempotencyKey worker = some key ∧ entry.response = cloneResponseWithRequestId task none)
    (hphase : phase.Backed runtimeSessionId middle.returned request) :
    AnswersBacked runtimeSessionId (middle.setThread thread request phase) where
  kept key entry hentry := by
    rcases hkept key entry hentry with hold | hnew
    · obtain ⟨worker, task, htask, hrest⟩ := h.kept key entry hold
      exact ⟨worker, task, hmore htask, hrest⟩
    · exact hnew
  given other request' phase' hother := by
    rw [Extension.threads_setThread, hthreads] at hother
    split at hother
    · cases hother
      exact hphase
    · exact (h.given _ _ _ hother).mono hmore

theorem answersBacked_step (h : AnswersBacked runtimeSessionId state)
    (htaken : threadStep? runtimeSessionId state step = some next) :
    AnswersBacked runtimeSessionId next := by
  obtain ⟨thread, request, rfl, -, rfl⟩ | ⟨thread, now, request, rfl, -, rfl⟩ |
    ⟨thread, now, iteration, request, rfl, -, rfl⟩ | ⟨thread, request, rfl, -, rfl⟩ |
    ⟨thread, outcome, request, rfl, -, rfl⟩ |
    ⟨thread, now, iteration, request, response, rfl, hthread, rfl⟩ := threadStep?_cases htaken
  · exact h.setThread rfl (List.Subset.refl _) (fun _ _ => .inl) trivial
  · refine h.setThread rfl (List.Subset.refl _) (fun _ _ => .inl) ?_
    cases hcheck : validateCommandMetadata request runtimeSessionId now with
    | none => trivial
    | some rejection => exact .inr (.inl ⟨now, hcheck⟩)
  · refine h.setThread rfl (List.Subset.refl _) (fun _ _ hentry => .inl (get?_of_replay hentry)) ?_
    change (afterLookUp (replayCachedResponse iteration state.processed request now).1).Backed ..
    cases hcached : (replayCachedResponse iteration state.processed request now).1 with
    | none => trivial
    | some cached =>
      obtain ⟨key, entry, hkey, hentry, rfl⟩ := get?_of_replayed hcached
      obtain ⟨worker, task, htask, hworker, hresponse⟩ := h.kept key entry hentry
      exact .inr (.inr ⟨worker, task, key, htask, hworker, hkey, by rw [hresponse]; rfl⟩)
  · exact h.setThread rfl (List.Subset.refl _) (fun _ _ => .inl) trivial
  · exact h.setThread rfl (List.subset_append_left ..) (fun _ _ => .inl)
      (List.mem_append_right _ (List.mem_singleton_self _))
  · refine h.setThread rfl (List.Subset.refl _) (fun key entry hentry => ?_)
      (.inl (h.given _ _ _ hthread))
    by_cases hkey : idempotencyKey request = some key
    · simp only [rememberProcessedResponse, hkey, OrderedMap.get?_set_self,
        Option.some.injEq] at hentry
      exact .inr ⟨request, response, h.given _ _ _ hthread, hkey, by rw [← hentry]⟩
    · exact .inl (get?_of_remember hkey hentry)

/-- However the deliveries interleave, no request is answered with what a task under another key
returned. -/
theorem answers_backed (runtimeSessionId : String) (steps : List ThreadStep) (last : Extension) :
    Run (Reaching (AnswersBacked runtimeSessionId) (Takes (threadStep? runtimeSessionId))) .start
        steps last ↔
      Run (Takes (threadStep? runtimeSessionId)) .start steps last :=
  Run.reaching_iff (AnswersBacked runtimeSessionId)
    (fun _ _ _ h htaken => answersBacked_step h htaken) (fun _ h => h) ⟨nofun, nofun⟩

end Nobie.Yeonjang
