/-
# Requests settle once and by their own answer

Every call of `request` waits or has been settled, and one that was settled by a message was
settled by a response with its id from the process it was written to. The first is kept by the
books: the table, the timers and the record of settlements hold every call once. The second rests
on the buffer: as long as it holds bytes of the current process only, the frames that are taken
off are the ones that this process wrote.
-/

import Nobie.Mcp.StdioClient

namespace Nobie.Mcp

open Foundation McpStdioClient List OrderedMap

/-! ## The books

Every step moves a call from one place to the next, and what is under an id belongs to one call. -/

variable {server : StdioServer} {client next : McpStdioClient}

/-- What the table, the timers, the listeners and the record have in common: every call is in one
place, and what is under an id belongs to one call, which was written under it. -/
structure Booked (client : McpStdioClient) : Prop where
  accounted : ∀ call, client.starting.keys.count call + client.pendingCalls.count call +
    client.settledCalls.count call = if call < client.calls then 1 else 0
  timed : ∀ id, (client.timers.get? id).map RequestTimer.call =
    (client.pending.get? id).map PendingRequest.call
  listened : ∀ listener ∈ client.abortListeners, ∀ request,
    client.pending.get? listener.id = some request → request.call = listener.call
  heard : ∀ listener ∈ client.abortListeners, listener.id ≤ client.requestId
  issued : ∀ id request, client.pending.get? id = some request → id ≤ client.requestId
  sent : ∀ id request, client.pending.get? id = some request →
    { call := request.call, id, child := request.child } ∈ client.sent
  current : ∀ id request, client.pending.get? id = some request →
    client.process = some request.child

theorem keys_count_erase {map : OrderedMap ℕ RequestCall} {key : ℕ} {value : RequestCall}
    (h : map.get? key = some value) (other : ℕ) :
    map.keys.count other = (map.erase key).keys.count other + if key = other then 1 else 0 := by
  have hperm := (perm_erase h).map Prod.fst
  have hcount := hperm.count_eq other
  simp only [map_cons, count_cons, beq_iff_eq] at hcount
  exact hcount

variable {id : ℕ} {request : PendingRequest} (message : JsString)

theorem pendingCalls_count_clear (h : client.pending.get? id = some request) (call : ℕ) :
    client.pendingCalls.count call =
      (client.clear id).pendingCalls.count call + if request.call = call then 1 else 0 := by
  have hperm := (perm_erase h).map fun entry => entry.2.call
  have hcount := hperm.count_eq call
  simp only [map_cons, count_cons, beq_iff_eq] at hcount
  exact hcount

namespace Booked

theorem get?_of_clear {other : ℕ} (h : (client.clear id).pending.get? other = some request) :
    client.pending.get? other = some request := by
  have hget : (client.clear id).pending.get? other =
      if id = other then none else client.pending.get? other := get?_erase _ _ _
  rw [hget] at h
  split_ifs at h
  exact h

/-- Settling the request that is taken out of the table. -/
theorem finish (h : Booked client) (hrequest : client.pending.get? id = some request)
    (outcome : Outcome) (answer : Option JsonValue) :
    Booked ((client.clear id).settle request.call outcome answer) where
  accounted call := by
    have hbefore := h.accounted call
    have hclear := pendingCalls_count_clear hrequest call
    have hsettled : ((client.clear id).settle request.call outcome answer).settledCalls =
        client.settledCalls ++ [request.call] := by
      simp [settledCalls, settle, clear]
    rw [hsettled, count_append, count_singleton]
    have hpending : ((client.clear id).settle request.call outcome answer).pendingCalls =
        (client.clear id).pendingCalls := rfl
    have hstarting : ((client.clear id).settle request.call outcome answer).starting =
        client.starting := rfl
    have hcalls : ((client.clear id).settle request.call outcome answer).calls = client.calls := rfl
    rw [hpending, hstarting, hcalls]
    simp only [beq_iff_eq]
    omega
  timed other := by
    have htimers : (client.timers.erase id).get? other =
        if id = other then none else client.timers.get? other := get?_erase _ _ _
    have hpending : (client.pending.erase id).get? other =
        if id = other then none else client.pending.get? other := get?_erase _ _ _
    show ((client.timers.erase id).get? other).map _ = ((client.pending.erase id).get? other).map _
    rw [htimers, hpending]
    split_ifs
    · rfl
    · exact h.timed other
  listened listener hlistener other hother :=
    h.listened listener hlistener other (get?_of_clear hother)
  heard := h.heard
  issued other found hfound := h.issued other found (get?_of_clear hfound)
  sent other found hfound := h.sent other found (get?_of_clear hfound)
  current other found hfound := h.current other found (get?_of_clear hfound)

theorem timer_call (h : Booked client) {timer : RequestTimer}
    (htimer : client.timers.get? id = some timer) :
    ∃ request, client.pending.get? id = some request ∧ request.call = timer.call := by
  have htimed := h.timed id
  rw [htimer, Option.map_some] at htimed
  obtain ⟨request, hrequest, hcall⟩ := Option.map_eq_some_iff.mp htimed.symm
  exact ⟨request, hrequest, hcall⟩

theorem onTimeout (h : Booked client) {id : ℕ} {timer : RequestTimer}
    (htimer : client.timers.get? id = some timer) : Booked (client.onTimeout server id timer) := by
  obtain ⟨request, hrequest, hcall⟩ := h.timer_call htimer
  rw [McpStdioClient.onTimeout, ← hcall]
  exact h.finish hrequest _ none

/-- Entries that are in the table can be rejected one after the other. -/
theorem reject_entries {entries : List (ℕ × PendingRequest)} (hnodup : (entries.map Prod.fst).Nodup)
    (hentries : ∀ entry ∈ entries, client.pending.get? entry.1 = some entry.2) (h : Booked client) :
    Booked (entries.foldl (fun client entry =>
      (client.clear entry.1).settle entry.2.call (.rejected message) none) client) := by
  induction entries generalizing client with
  | nil => exact h
  | cons entry rest ih =>
    obtain ⟨hentry, hrest⟩ := forall_mem_cons.mp hentries
    rw [map_cons, nodup_cons] at hnodup
    refine ih hnodup.2 (fun other hother => ?_) (h.finish hentry _ none)
    have hne : entry.1 ≠ other.1 := fun heq => hnodup.1 (heq ▸ mem_map_of_mem hother)
    have hget : (client.pending.erase entry.1).get? other.1 =
        if entry.1 = other.1 then none else client.pending.get? other.1 :=
      get?_erase _ _ _
    rw [if_neg hne, hrest other hother] at hget
    exact hget

theorem rejectAll (h : Booked client) (message : JsString) : Booked (client.rejectAll message) :=
  reject_entries message client.pending.nodup (fun _ hentry => get?_of_mem_entries hentry) h

/-- A client whose table is empty may lose its process. -/
theorem of_empty (h : Booked client) (hempty : ∀ id, client.pending.get? id = none)
    {process : Option ℕ} {spawned : ℕ} {attached running : List ℕ} :
    Booked { client with process, spawned, attached, running } where
  accounted := h.accounted
  timed := h.timed
  listened := h.listened
  heard := h.heard
  issued := h.issued
  sent := h.sent
  current id request hrequest := by
    have hnone := hempty id
    rw [show client.pending.get? id = some request from hrequest] at hnone
    cases hnone

theorem empty_of_idle (h : Booked client) (hidle : client.process = none) (id : ℕ) :
    client.pending.get? id = none := by
  cases hrequest : client.pending.get? id with
  | none => rfl
  | some request =>
    have hcurrent := h.current id request hrequest
    rw [hidle] at hcurrent
    cases hcurrent

end Booked

/-- Nothing is left in the table. -/
theorem rejectAll_pending (id : ℕ) : (client.rejectAll message).pending.get? id = none := by
  have hfold : ∀ (entries : List (ℕ × PendingRequest)) (start : McpStdioClient),
      (entries.foldl (fun client entry =>
        (client.clear entry.1).settle entry.2.call (.rejected message) none) start).pending =
        (entries.map Prod.fst).foldl OrderedMap.erase start.pending := by
    intro entries
    induction entries with
    | nil => exact fun start => rfl
    | cons entry rest ih => exact fun start => ih _
  rw [rejectAll, hfold, get?_foldl_erase]
  split_ifs with hkey
  · rfl
  · cases hrequest : client.pending.get? id with
    | none => rfl
    | some request => exact absurd (mem_map_of_mem (mem_entries_of_get? hrequest)) hkey

/-- What is rejected does not depend on the process. -/
theorem rejectAll_withProcess (process : Option ℕ) (running : List ℕ) :
    ({ client with process, running } : McpStdioClient).rejectAll message =
      { client.rejectAll message with process, running } := by
  have hfold : ∀ (entries : List (ℕ × PendingRequest)) (start : McpStdioClient),
      entries.foldl (fun client entry =>
        (client.clear entry.1).settle entry.2.call (.rejected message) none)
          { start with process, running } =
        { entries.foldl (fun client entry =>
          (client.clear entry.1).settle entry.2.call (.rejected message) none) start with
          process, running } := by
    intro entries
    induction entries with
    | nil => exact fun start => rfl
    | cons entry rest ih =>
      exact fun start => ih ((start.clear entry.1).settle entry.2.call (.rejected message) none)
  exact hfold client.pending.entries client

/-! ### Each step keeps the books -/

namespace Booked

section

variable (h : Booked client)
include h

theorem ensureProcess (hnext : client.ensureProcess server = some next) :
    Booked next := by
  unfold McpStdioClient.ensureProcess at hnext
  cases hprocess : client.process with
  | some child =>
    simp only [hprocess] at hnext
    exact Option.some.inj hnext ▸ h
  | none =>
    simp only [hprocess] at hnext
    split_ifs at hnext
    cases hnext
    exact h.of_empty (h.empty_of_idle hprocess)

theorem close : Booked (client.close server) := by
  unfold McpStdioClient.close
  dsimp only
  split
  · exact h.rejectAll _
  · exact (h.rejectAll _).of_empty fun id => rejectAll_pending _ id

theorem onExit (child : ℕ) (status : ExitStatus) :
    Booked (client.onExit server child status) := by
  rw [McpStdioClient.onExit, rejectAll_withProcess]
  exact (h.rejectAll _).of_empty fun id => rejectAll_pending _ id

/-- A new call is in no place yet. -/
theorem starting_new : client.starting.get? client.calls = none := by
  cases hrequest : client.starting.get? client.calls with
  | none => rfl
  | some request =>
    have hkey : client.calls ∈ client.starting.keys := (mem_keys_iff _ _).mpr ⟨request, hrequest⟩
    have hcount := count_pos_iff.mpr hkey
    have hnone := h.accounted client.calls
    rw [if_neg (lt_irrefl _)] at hnone
    omega

theorem beginRequest (request : RequestCall) :
    Booked (client.beginRequest server request) := by
  have hcalls (call : ℕ) : (if client.calls = call then 1 else 0) +
      (if call < client.calls then 1 else 0) = if call < client.calls + 1 then 1 else 0 := by
    split_ifs <;> omega
  unfold McpStdioClient.beginRequest
  dsimp only
  cases hensured : ({ client with calls := client.calls + 1 } : McpStdioClient).ensureProcess
      server with
  | none =>
    exact
      { h with
        accounted := fun call => by
          have hbefore := h.accounted call
          have hsettled : settledCalls (settle { client with calls := client.calls + 1 }
              client.calls (.rejected (server.said "\" command가 비어 있습니다.")) none) =
              client.settledCalls ++ [client.calls] := by
            simp [settledCalls, settle]
          show client.starting.keys.count call + client.pendingCalls.count call + _ =
            if call < client.calls + 1 then 1 else 0
          rw [hsettled, count_append, count_singleton, ← hcalls]
          simp only [beq_iff_eq]
          omega }
  | some ensured =>
    -- the call is counted among those that wait for the process
    suffices hcounted : Booked { client with
        calls := client.calls + 1
        starting := client.starting.set client.calls request } by
      unfold McpStdioClient.ensureProcess at hensured
      split at hensured
      · cases hensured
        exact hcounted
      · next hprocess =>
        split_ifs at hensured
        cases hensured
        exact hcounted.of_empty (h.empty_of_idle hprocess)
    exact
      { h with
        accounted := fun call => by
          have hbefore := h.accounted call
          have hkeys : (client.starting.set client.calls request).keys =
              client.starting.keys ++ [client.calls] := by
            rw [OrderedMap.keys, entries_set_of_none request h.starting_new, map_append]
            rfl
          show (client.starting.set client.calls request).keys.count call +
            client.pendingCalls.count call + client.settledCalls.count call =
              if call < client.calls + 1 then 1 else 0
          rw [hkeys, count_append, count_singleton, ← hcalls]
          simp only [beq_iff_eq]
          omega }

theorem proceedRequest {call : ℕ} {request : RequestCall}
    (hstarting : client.starting.get? call = some request) :
    Booked (client.proceedRequest server call request) := by
  have hcount (other : ℕ) := keys_count_erase hstarting other
  unfold McpStdioClient.proceedRequest
  dsimp only
  split
  · next hprocess =>
    exact
      { h with
        accounted := fun other => by
          have hbefore := h.accounted other
          have hsettled : settledCalls (settle { client with
              starting := client.starting.erase call } call
              (.rejected (server.said "\" process is not available.")) none) =
              client.settledCalls ++ [call] := by
            simp [settledCalls, settle]
          show (client.starting.erase call).keys.count other +
            client.pendingCalls.count other + _ = if other < client.calls then 1 else 0
          rw [hsettled, count_append, count_singleton, ← hbefore, hcount other]
          simp only [beq_iff_eq]
          omega }
  · next child hprocess =>
    have hnew : client.pending.get? (client.requestId + 1) = none := by
      cases hfound : client.pending.get? (client.requestId + 1) with
      | none => rfl
      | some found =>
        have hissued := h.issued _ found hfound
        omega
    have hget (id : ℕ) : (client.pending.set (client.requestId + 1) ⟨call, child⟩).get? id =
        if client.requestId + 1 = id then some ⟨call, child⟩ else client.pending.get? id :=
      get?_set _ _ _ _
    refine
      { accounted := fun other => ?_
        timed := fun id => ?_
        listened := fun listener hlistener found hfound => ?_
        heard := fun listener hlistener => ?_
        issued := fun id found hfound => ?_
        sent := fun id found hfound => ?_
        current := fun id found hfound => ?_ }
    · have hbefore := h.accounted other
      have hpending : (register { client with starting := client.starting.erase call } call
          child request).pendingCalls = client.pendingCalls ++ [call] := by
        rw [pendingCalls, register, entries_set_of_none _ hnew, map_append]
        rfl
      show (client.starting.erase call).keys.count other + _ + client.settledCalls.count other =
        if other < client.calls then 1 else 0
      rw [hpending, count_append, count_singleton, ← hbefore, hcount other]
      simp only [beq_iff_eq]
      omega
    · show ((client.timers.set (client.requestId + 1) _).get? id).map _ =
        ((client.pending.set (client.requestId + 1) _).get? id).map _
      rw [get?_set, get?_set]
      split_ifs
      · rfl
      · exact h.timed id
    · replace hfound : (client.pending.set (client.requestId + 1) ⟨call, child⟩).get?
          listener.id = some found := hfound
      rw [hget] at hfound
      obtain hold | hsignal := mem_append.mp hlistener
      · have hheard := h.heard listener hold
        rw [if_neg (by omega)] at hfound
        exact h.listened listener hold found hfound
      · obtain ⟨signal, -, rfl⟩ := mem_map.mp hsignal
        rw [if_pos rfl] at hfound
        exact Option.some.inj hfound ▸ rfl
    · obtain hold | hsignal := mem_append.mp hlistener
      · exact Nat.le_succ_of_le (h.heard listener hold)
      · obtain ⟨signal, -, rfl⟩ := mem_map.mp hsignal
        exact le_rfl
    · replace hfound := (hget id).symm.trans hfound
      split_ifs at hfound with hid
      · exact hid.ge
      · exact Nat.le_succ_of_le (h.issued id found hfound)
    · replace hfound := (hget id).symm.trans hfound
      split_ifs at hfound with hid
      · cases hfound
        exact mem_append_right _ (mem_singleton.mpr (by rw [hid]))
      · exact mem_append_left _ (h.sent id found hfound)
    · replace hfound := (hget id).symm.trans hfound
      split_ifs at hfound with hid
      · exact Option.some.inj hfound ▸ hprocess
      · exact h.current id found hfound

/-- Listeners of which each belongs to the call under its id can be called one after the other. -/
theorem call_listeners {listeners : List AbortListener}
    (hlisteners : ∀ listener ∈ listeners, ∀ request,
      client.pending.get? listener.id = some request → request.call = listener.call) :
    Booked (listeners.foldl (onAbort server) client) := by
  induction listeners generalizing client with
  | nil => exact h
  | cons listener rest ih =>
    obtain ⟨hlistener, hrest⟩ := forall_mem_cons.mp hlisteners
    rw [foldl_cons]
    cases hrequest : client.pending.get? listener.id with
    | none =>
      have hsame : onAbort server client listener = client := by simp [onAbort, hrequest]
      rw [hsame]
      exact ih h hrest
    | some request =>
      rw [onAbort]
      simp only [hrequest]
      rw [← hlistener request hrequest]
      exact ih (h.finish hrequest _ none) fun other hother found hfound =>
        hrest other hother found (get?_of_clear hfound)

theorem abort (signal : ℕ) : Booked (client.abort server signal) := by
  have hbefore : Booked { client with
      abortedSignals := client.abortedSignals ++ [signal]
      abortListeners := client.abortListeners.filter (·.signal ≠ signal) } :=
    { h with
      listened := fun listener hlistener => h.listened listener (mem_filter.mp hlistener).1
      heard := fun listener hlistener => h.heard listener (mem_filter.mp hlistener).1 }
  exact hbefore.call_listeners fun listener hlistener =>
    h.listened listener (mem_filter.mp hlistener).1

end

end Booked

/-! ## Own answers -/

open JsString

variable {server : StdioServer} {written : ℕ → List Piece} {client next : McpStdioClient}
  {event : ClientEvent}

/-! ## What is wanted -/

namespace McpStdioClient

/-- The calls that wait for their process or for their answer. -/
def waitingCalls (client : McpStdioClient) : List ℕ := client.starting.keys ++ client.pendingCalls

end McpStdioClient

/-- A message settled the call by being the response, in a complete frame of the process that the
call was written to, with the id it was written under. -/
def IsOwnAnswer (server : StdioServer) (written : ℕ → List Piece) (client : McpStdioClient)
    (settlement : Settlement) (message : JsonValue) : Prop :=
  ∃ sent ∈ client.sent, sent.call = settlement.call ∧
    server.messageId? message = some (sent.id : ℚ) ∧ isResponse message ∧
    answerOutcome? server sent.id message = some settlement.outcome ∧
    ∃ body ∈ completeBodies (written sent.child) (client.receivedFrom sent.child).length,
      parseBody body = some message

structure SettlesOwn (server : StdioServer) (written : ℕ → List Piece) (client : McpStdioClient) :
    Prop where
  /-- A call waits or is settled, and is settled once. -/
  once : ∀ call < client.calls, client.waitingCalls.count call + client.settledCalls.count call = 1
  /-- A call in the table has a timer that settles it. -/
  ends : ∀ id request, client.pending.get? id = some request →
    ∃ next, clientStep? server written client (.timeout id) = some next ∧
      next.settledCalls.count request.call = 1
  own : ∀ settlement ∈ client.settlements, ∀ message, settlement.answer = some message →
    IsOwnAnswer server written client settlement message
  inOrder : ∀ child, client.process = some child →
    client.handledFrom child = completeBodies (written child) (client.receivedFrom child).length
  noneLeft : ∀ id request, client.pending.get? id = some request →
    client.process = some request.child

/-! ## When it holds -/

/-- A frame whose message meets a waiting request is the request's response, and an error in it
has a message that is a text. -/
def Answers (server : StdioServer) (client : McpStdioClient) (body : Bytes) : Bool :=
  match parseBody body with
  | none => true
  | some message =>
    match client.pendingFor? server message with
    | none => true
    | some (id, _) => isResponse message && (answerOutcome? server id message).isSome

def AllAnswer (server : StdioServer) (child : ℕ) : McpStdioClient → List Bytes → Bool
  | _, [] => true
  | client, body :: rest =>
    Answers server client body && AllAnswer server child (handleBody server child client body) rest

/-- No process starts on a buffer that still holds bytes; what arrives is the output of the
current process, if there is one; its text in front of frames names no length; and its messages
with the id of a waiting request answer it. -/
def KeepsApart (server : StdioServer) (written : ℕ → List Piece) (client : McpStdioClient) :
    ClientEvent → Prop
  | .ensureProcess | .request _ => client.process = none → client.stdoutBuffer = []
  | .stdout child chunk =>
    (client.process = none ∨ client.process = some child) ∧
      (∀ piece ∈ written child, piece.Unmistakable) ∧
      AllAnswer server child client (frames.consume (client.stdoutBuffer ++ chunk)).1
  | _ => True

instance : Decidable (KeepsApart server written client event) := by
  cases event <;> unfold KeepsApart <;> infer_instance

/-! ## The streams -/

variable {body : Bytes} (child : ℕ)

theorem completeBodies_mono {pieces : List Piece} {few many : ℕ} (hle : few ≤ many)
    (hbody : body ∈ completeBodies pieces few) : body ∈ completeBodies pieces many := by
  induction pieces generalizing few many with
  | nil => exact hbody
  | cons piece pieces ih =>
    rw [completeBodies] at hbody ⊢
    split_ifs at hbody with hfew
    · rw [if_pos (by omega)]
      obtain rfl | hbody := mem_cons.mp hbody
      · exact mem_cons_self
      · exact mem_cons_of_mem _ (ih (by omega) hbody)
    · cases hbody

theorem completeBodies_zero (pieces : List Piece) : completeBodies pieces 0 = [] := by
  cases pieces with
  | nil => rfl
  | cons piece pieces =>
    have hlength := length_bytes piece
    rw [completeBodies, if_neg (by omega)]

theorem receivedFrom_append (child other : ℕ) (chunk : Bytes)
    (hreceived : next.received = client.received ++ [(child, chunk)]) :
    next.receivedFrom other = client.receivedFrom other ++ if other = child then chunk else [] := by
  unfold receivedFrom
  rw [hreceived, filter_append, flatMap_append]
  by_cases hchild : child = other
  · simp [hchild]
  · have hother : ¬ other = child := fun h => hchild h.symm
    simp [hchild, hother]

theorem handledFrom_append (child other : ℕ) (bodies : List Bytes)
    (hhandled : next.handled = client.handled ++ bodies.map fun body => (child, body)) :
    next.handledFrom other = client.handledFrom other ++ if other = child then bodies else [] := by
  unfold handledFrom
  rw [hhandled, filter_append, map_append]
  by_cases hchild : child = other
  · simp [hchild, filter_map, Function.comp_def]
  · have hother : ¬ other = child := fun h => hchild h.symm
    simp [hchild, hother, filter_map, Function.comp_def]

/-- What the record of answers says stays true when more is written and received. -/
theorem IsOwnAnswer.mono {settlement : Settlement} {message : JsonValue}
    (h : IsOwnAnswer server written client settlement message)
    (hsent : ∀ sent ∈ client.sent, sent ∈ next.sent)
    (hreceived : ∀ child, (client.receivedFrom child).length ≤ (next.receivedFrom child).length) :
    IsOwnAnswer server written next settlement message := by
  obtain ⟨sent, hmem, hcall, hid, hresponse, houtcome, body, hbody, hparse⟩ := h
  exact ⟨sent, hsent sent hmem, hcall, hid, hresponse, houtcome, body,
    completeBodies_mono (hreceived sent.child) hbody, hparse⟩

/-- What is in the buffer is what the current process wrote and no frame took. -/
structure InStep (server : StdioServer) (written : ℕ → List Piece) (client : McpStdioClient) :
    Prop where
  fresh : ∀ child ∈ client.attached, child < client.spawned
  receivedOld : ∀ entry ∈ client.received, entry.1 < client.spawned
  handledOld : ∀ entry ∈ client.handled, entry.1 < client.spawned
  reading : ∀ child, client.process = some child →
    frames.consume (client.receivedFrom child) = (client.handledFrom child, client.stdoutBuffer)
  inOrder : ∀ child, client.process = some child →
    client.handledFrom child = completeBodies (written child) (client.receivedFrom child).length
  own : ∀ settlement ∈ client.settlements, ∀ message, settlement.answer = some message →
    IsOwnAnswer server written client settlement message

/-- A step that only settles calls without the server, and may end processes. -/
structure Withdraws (client next : McpStdioClient) : Prop where
  process : next.process = client.process ∨ next.process = none
  spawned : next.spawned = client.spawned
  attached : ∀ child ∈ next.attached, child ∈ client.attached
  stdoutBuffer : next.stdoutBuffer = client.stdoutBuffer
  sent : ∀ sent ∈ client.sent, sent ∈ next.sent
  received : next.received = client.received
  handled : next.handled = client.handled
  settlements : ∀ settlement ∈ next.settlements,
    settlement ∈ client.settlements ∨ settlement.answer = none

namespace Withdraws

theorem refl (client : McpStdioClient) : Withdraws client client where
  process := .inl rfl
  spawned := rfl
  attached _ hchild := hchild
  stdoutBuffer := rfl
  sent _ hsent := hsent
  received := rfl
  handled := rfl
  settlements _ hsettlement := .inl hsettlement

theorem trans {last : McpStdioClient} (h : Withdraws client next) (hlast : Withdraws next last) :
    Withdraws client last where
  process := by
    obtain hprocess | hprocess := hlast.process
    · rw [hprocess]
      exact h.process
    · exact .inr hprocess
  spawned := hlast.spawned.trans h.spawned
  attached child hchild := h.attached child (hlast.attached child hchild)
  stdoutBuffer := hlast.stdoutBuffer.trans h.stdoutBuffer
  sent sent hsent := hlast.sent sent (h.sent sent hsent)
  received := hlast.received.trans h.received
  handled := hlast.handled.trans h.handled
  settlements settlement hsettlement := by
    obtain hbefore | hnone := hlast.settlements settlement hsettlement
    · exact h.settlements settlement hbefore
    · exact .inr hnone

/-- A step that appends one settlement by the client itself. -/
theorem of_settle (h : Withdraws client next) (call : ℕ) (outcome : Outcome) :
    Withdraws client (next.settle call outcome none) :=
  h.trans
    { refl next with
      settlements := fun settlement hsettlement => by
        obtain hbefore | hnew := mem_append.mp hsettlement
        · exact .inl hbefore
        · exact .inr (mem_singleton.mp hnew ▸ rfl) }

theorem of_clear (id : ℕ) : Withdraws client (client.clear id) := { refl client with }

theorem rejectAll (message : JsString) : Withdraws client (client.rejectAll message) :=
  List.foldlRecOn client.pending.entries _ (motive := Withdraws client) (refl client)
    fun _ hlast entry _ =>
      hlast.trans ((of_clear entry.1).of_settle entry.2.call (.rejected message))

theorem close : Withdraws client (client.close server) := by
  unfold McpStdioClient.close
  dsimp only
  split
  · exact rejectAll _
  · exact (rejectAll _).trans
      { refl (client.rejectAll _) with
        process := .inr rfl
        attached := fun child hchild => (mem_filter.mp hchild).1 }

theorem onExit (status : ExitStatus) : Withdraws client (client.onExit server child status) := by
  rw [McpStdioClient.onExit, rejectAll_withProcess]
  exact (rejectAll _).trans { refl (client.rejectAll _) with process := .inr rfl }

theorem abort (signal : ℕ) : Withdraws client (client.abort server signal) := by
  have hbefore : Withdraws client { client with
      abortedSignals := client.abortedSignals ++ [signal]
      abortListeners := client.abortListeners.filter (·.signal ≠ signal) } := { refl client with }
  refine List.foldlRecOn _ _ (motive := Withdraws client) hbefore fun last hlast listener _ => ?_
  unfold onAbort
  split
  · exact hlast
  · exact hlast.trans ((of_clear listener.id).of_settle listener.call _)

theorem proceedRequest (call : ℕ) (request : RequestCall) :
    Withdraws client (client.proceedRequest server call request) := by
  unfold McpStdioClient.proceedRequest
  dsimp only
  split
  · have herase : Withdraws client { client with starting := client.starting.erase call } :=
      { refl client with }
    exact herase.of_settle call _
  · exact { refl client with sent := fun sent hsent => mem_append_left _ hsent }

end Withdraws

namespace InStep

section

variable (h : InStep server written client)
include h

theorem withdraw (hnext : Withdraws client next) :
    InStep server written next := by
  have hreceived (child : ℕ) : next.receivedFrom child = client.receivedFrom child := by
    rw [receivedFrom, receivedFrom, hnext.received]
  have hhandled (child : ℕ) : next.handledFrom child = client.handledFrom child := by
    rw [handledFrom, handledFrom, hnext.handled]
  have hprocess (child : ℕ) (hchild : next.process = some child) : client.process = some child := by
    obtain hsame | hnone := hnext.process
    · exact hsame ▸ hchild
    · rw [hnone] at hchild
      cases hchild
  exact
    { fresh := fun child hchild => hnext.spawned ▸ h.fresh child (hnext.attached child hchild)
      receivedOld := by
        rw [hnext.received, hnext.spawned]
        exact h.receivedOld
      handledOld := by
        rw [hnext.handled, hnext.spawned]
        exact h.handledOld
      reading := fun child hchild => by
        rw [hreceived, hhandled, hnext.stdoutBuffer]
        exact h.reading child (hprocess child hchild)
      inOrder := fun child hchild => by
        rw [hreceived, hhandled]
        exact h.inOrder child (hprocess child hchild)
      own := fun settlement hsettlement message hmessage => by
        obtain hbefore | hnone := hnext.settlements settlement hsettlement
        · exact (h.own settlement hbefore message hmessage).mono hnext.sent fun child =>
            (hreceived child).symm ▸ le_rfl
        · rw [hnone] at hmessage
          cases hmessage }

/-- A process that starts on an empty buffer has written nothing yet, and the buffer holds it. -/
theorem ensureProcess
    (hclean : client.process = none → client.stdoutBuffer = [])
    (hnext : client.ensureProcess server = some next) : InStep server written next := by
  unfold McpStdioClient.ensureProcess at hnext
  split at hnext
  · exact Option.some.inj hnext ▸ h
  · next hprocess =>
    split_ifs at hnext
    cases hnext
    have hreceived : client.receivedFrom client.spawned = [] := by
      rw [receivedFrom, filter_eq_nil_iff.mpr, flatMap_nil]
      intro entry hentry
      have hold := h.receivedOld entry hentry
      simp only [decide_eq_true_eq]
      omega
    have hhandled : client.handledFrom client.spawned = [] := by
      rw [handledFrom, filter_eq_nil_iff.mpr, map_nil]
      intro entry hentry
      have hold := h.handledOld entry hentry
      simp only [decide_eq_true_eq]
      omega
    exact
      { fresh := fun child hchild => by
          obtain hold | hnew := mem_append.mp hchild
          · exact Nat.lt_succ_of_lt (h.fresh child hold)
          · rw [mem_singleton.mp hnew]
            exact Nat.lt_succ_self _
        receivedOld := fun entry hentry => Nat.lt_succ_of_lt (h.receivedOld entry hentry)
        handledOld := fun entry hentry => Nat.lt_succ_of_lt (h.handledOld entry hentry)
        reading := fun child hchild => by
          cases hchild
          show frames.consume (client.receivedFrom client.spawned) =
            (client.handledFrom client.spawned, client.stdoutBuffer)
          rw [hreceived, hhandled, hclean hprocess]
          rfl
        inOrder := fun child hchild => by
          cases hchild
          show client.handledFrom client.spawned =
            completeBodies _ (client.receivedFrom client.spawned).length
          rw [hreceived, hhandled, length_nil, completeBodies_zero]
        own := h.own }

theorem beginRequest
    (hclean : client.process = none → client.stdoutBuffer = []) (request : RequestCall) :
    InStep server written (client.beginRequest server request) := by
  have hcounted : InStep server written { client with calls := client.calls + 1 } := { h with }
  unfold McpStdioClient.beginRequest
  dsimp only
  split
  · exact hcounted.withdraw ((Withdraws.refl _).of_settle _ _)
  · next ensured hensured =>
    have hnext : InStep server written ensured := hcounted.ensureProcess hclean hensured
    exact { hnext with }

end

end InStep

/-! ### The frames of one chunk -/

theorem pendingFor?_eq_some {message : JsonValue} {id : ℕ} {request : PendingRequest}
    (h : client.pendingFor? server message = some (id, request)) :
    client.pending.get? id = some request ∧ server.messageId? message = some (id : ℚ) := by
  obtain ⟨found, hfound, hentry⟩ := Option.bind_eq_some_iff.mp h
  have hid : ((id : ℕ) : ℚ) = found := by simpa using find?_some hentry
  exact ⟨OrderedMap.get?_of_mem_entries (mem_of_find?_eq_some hentry), hid ▸ hfound⟩

/-- A frame is logged, and either settles nothing or settles the request that its message
answers. -/
theorem handleBody_cases (hanswers : Answers server client body) :
    handleBody server child client body =
        { client with handled := client.handled ++ [(child, body)] } ∨
      ∃ message id request outcome, parseBody body = some message ∧
        client.pending.get? id = some request ∧ server.messageId? message = some (id : ℚ) ∧
        isResponse message ∧ answerOutcome? server id message = some outcome ∧
        handleBody server child client body =
          ({ client with handled := client.handled ++ [(child, body)] }.clear id).settle
            request.call outcome (some message) := by
  unfold Answers at hanswers
  cases hparse : parseBody body with
  | none =>
    left
    simp only [handleBody, hparse]
  | some message =>
    simp only [hparse] at hanswers
    have hsame : ({ client with handled := client.handled ++ [(child, body)] } :
        McpStdioClient).pendingFor? server message = client.pendingFor? server message := rfl
    cases hpending : client.pendingFor? server message with
    | none =>
      left
      simp only [handleBody, hparse, handleMessage, hsame, hpending]
    | some entry =>
      obtain ⟨id, request⟩ := entry
      simp only [hpending, Bool.and_eq_true, Option.isSome_iff_exists] at hanswers
      obtain ⟨hresponse, outcome, houtcome⟩ := hanswers
      obtain ⟨hget, hid⟩ := pendingFor?_eq_some hpending
      right
      refine ⟨message, id, request, outcome, rfl, hget, hid, hresponse, houtcome, ?_⟩
      simp only [handleBody, hparse, handleMessage, hsame, hpending, houtcome]

/-- What the frames of one chunk leave as it is. -/
structure SameStreams (client next : McpStdioClient) : Prop where
  process : next.process = client.process
  spawned : next.spawned = client.spawned
  attached : next.attached = client.attached
  received : next.received = client.received

def OwnAnswers (server : StdioServer) (written : ℕ → List Piece) (client : McpStdioClient) : Prop :=
  ∀ settlement ∈ client.settlements, ∀ message, settlement.answer = some message →
    IsOwnAnswer server written client settlement message

theorem handleBody_spec (hanswers : Answers server client body) (hbooked : Booked client)
    (hown : OwnAnswers server written client) (hgenuine : ∀ current, client.process = some current →
      body ∈ completeBodies (written current) (client.receivedFrom current).length) :
    Booked (handleBody server child client body) ∧
      OwnAnswers server written (handleBody server child client body) ∧
      SameStreams client (handleBody server child client body) ∧
      (handleBody server child client body).handled = client.handled ++ [(child, body)] := by
  have hlogged : Booked { client with handled := client.handled ++ [(child, body)] } :=
    { hbooked with }
  obtain hcase | ⟨message, id, request, outcome, hparse, hget, hid, hresponse, houtcome, hcase⟩ :=
    handleBody_cases child hanswers
  · rw [hcase]
    exact ⟨hlogged, hown, ⟨rfl, rfl, rfl, rfl⟩, rfl⟩
  · rw [hcase]
    refine ⟨hlogged.finish hget _ _, ?_, ⟨rfl, rfl, rfl, rfl⟩, rfl⟩
    intro settlement hsettlement found hfound
    obtain hbefore | hnew := mem_append.mp hsettlement
    · exact hown settlement hbefore found hfound
    · -- the request was written to the current process, and so was the frame read from it
      obtain rfl := mem_singleton.mp hnew
      cases hfound
      exact ⟨_, hbooked.sent id request hget, rfl, hid, hresponse, houtcome, body,
        hgenuine request.child (hbooked.current id request hget), hparse⟩

theorem handleBodies_spec {child : ℕ} {bodies : List Bytes}
    (hanswers : AllAnswer server child client bodies) (hbooked : Booked client)
    (hown : OwnAnswers server written client)
    (hgenuine : ∀ body ∈ bodies, ∀ current, client.process = some current →
      body ∈ completeBodies (written current) (client.receivedFrom current).length) :
    Booked (bodies.foldl (handleBody server child) client) ∧
      OwnAnswers server written (bodies.foldl (handleBody server child) client) ∧
      SameStreams client (bodies.foldl (handleBody server child) client) ∧
      (bodies.foldl (handleBody server child) client).handled =
        client.handled ++ bodies.map fun body => (child, body) := by
  induction bodies generalizing client with
  | nil => exact ⟨hbooked, hown, ⟨rfl, rfl, rfl, rfl⟩, by simp⟩
  | cons body rest ih =>
    obtain ⟨hbody, hrest⟩ := forall_mem_cons.mp hgenuine
    rw [AllAnswer, Bool.and_eq_true] at hanswers
    obtain ⟨hbooked, hown, hsame, hhandled⟩ := handleBody_spec child hanswers.1 hbooked hown hbody
    have hreceived (current : ℕ) : (handleBody server child client body).receivedFrom current =
        client.receivedFrom current := by
      rw [receivedFrom, receivedFrom, hsame.received]
    obtain ⟨hbookedLast, hownLast, hsameLast, hhandledLast⟩ := ih hanswers.2 hbooked hown
      fun other hother current hcurrent => by
        rw [hreceived]
        exact hrest other hother current (hsame.process ▸ hcurrent)
    refine ⟨hbookedLast, hownLast, ?_, ?_⟩
    · exact
        { process := hsameLast.process.trans hsame.process
          spawned := hsameLast.spawned.trans hsame.spawned
          attached := hsameLast.attached.trans hsame.attached
          received := hsameLast.received.trans hsame.received }
    · rw [foldl_cons, hhandledLast, hhandled, map_cons, append_assoc, singleton_append]

theorem handleBody_withBuffer (body buffer : Bytes) :
    handleBody server child { client with stdoutBuffer := buffer } body =
      { handleBody server child client body with stdoutBuffer := buffer } := by
  unfold handleBody
  cases parseBody body with
  | none => rfl
  | some message =>
    unfold handleMessage
    have hsame : ({ client with
        stdoutBuffer := buffer
        handled := client.handled ++ [(child, body)] } :
        McpStdioClient).pendingFor? server message = client.pendingFor? server message := rfl
    have hlogged : ({ client with handled := client.handled ++ [(child, body)] } :
        McpStdioClient).pendingFor? server message = client.pendingFor? server message := rfl
    simp only [hsame, hlogged]
    cases client.pendingFor? server message with
    | none => rfl
    | some entry =>
      obtain ⟨id, request⟩ := entry
      dsimp only
      cases answerOutcome? server id message <;> rfl

theorem handleBodies_withBuffer (bodies : List Bytes) (buffer : Bytes) :
    bodies.foldl (handleBody server child) { client with stdoutBuffer := buffer } =
      { bodies.foldl (handleBody server child) client with stdoutBuffer := buffer } := by
  induction bodies generalizing client with
  | nil => rfl
  | cons body rest ih => rw [foldl_cons, foldl_cons, handleBody_withBuffer, ih]

/-- The loop takes the frames off the buffer and handles them in their order. -/
theorem consumeFrames_eq {fuel : ℕ} (hfuel : client.stdoutBuffer.length ≤ fuel) :
    consumeFrames server child fuel client =
      { (frames.consume client.stdoutBuffer).1.foldl (handleBody server child) client with
        stdoutBuffer := (frames.consume client.stdoutBuffer).2 } := by
  induction fuel generalizing client with
  | zero =>
    obtain hempty := length_eq_zero_iff.mp (Nat.le_zero.mp hfuel)
    rw [consumeFrames, hempty]
    show client = { client with stdoutBuffer := [] }
    rw [← hempty]
  | succ fuel ih =>
    rw [consumeFrames]
    cases hread : readFrame? client.stdoutBuffer with
    | none =>
      have hnext : frames.next? client.stdoutBuffer = none := hread
      rw [Reader.consume_of_none hnext]
      rfl
    | some taken =>
      obtain ⟨body, rest⟩ := taken
      have hnext : frames.next? client.stdoutBuffer = some (body, rest) := hread
      have hshrinks := frames.shrinks hnext
      rw [Reader.consume_of_some hnext]
      cases body with
      | none =>
        have hrest : consumeFrames server child fuel { client with stdoutBuffer := rest } =
            _ := ih (show rest.length ≤ fuel by omega)
        dsimp only
        rw [hrest, handleBodies_withBuffer]
        rfl
      | some body =>
        have hbuffer : (handleBody server child { client with stdoutBuffer := rest }
            body).stdoutBuffer = rest := by rw [handleBody_withBuffer]
        have hrest := ih (hbuffer.symm ▸ (show rest.length ≤ fuel by omega))
        dsimp only
        rw [hrest, hbuffer, handleBody_withBuffer, handleBodies_withBuffer]
        rfl

/-! ## Chunks cut anywhere -/

namespace McpStdioClient

/-- A client without its record of the chunks that it received. -/
def unlogged (client : McpStdioClient) : McpStdioClient := { client with received := [] }

def withBuffer (client : McpStdioClient) (buffer : Bytes) : McpStdioClient :=
  { client with stdoutBuffer := buffer }

end McpStdioClient

theorem handleMessage_unlogged (client : McpStdioClient) (message : JsonValue) :
    client.unlogged.handleMessage server message =
      (client.handleMessage server message).unlogged := by
  unfold handleMessage
  have hsame : client.unlogged.pendingFor? server message = client.pendingFor? server message := rfl
  rw [hsame]
  cases client.pendingFor? server message with
  | none => rfl
  | some entry =>
    dsimp only
    cases answerOutcome? server entry.1 message <;> rfl

theorem handleBody_unlogged (client : McpStdioClient) (body : Bytes) :
    handleBody server child client.unlogged body =
      (handleBody server child client body).unlogged := by
  unfold handleBody
  cases parseBody body with
  | none => rfl
  | some message => exact handleMessage_unlogged { client with handled := _ } message

theorem foldl_withBuffer (client : McpStdioClient) (bodies : List Bytes) (buffer : Bytes) :
    bodies.foldl (handleBody server child) (client.withBuffer buffer) =
      (bodies.foldl (handleBody server child) client).withBuffer buffer :=
  handleBodies_withBuffer child bodies buffer

/-- A chunk does what the frames do that it completes in the buffer. -/
theorem onStdout_unlogged (chunk : Bytes) :
    (client.onStdout server child chunk).unlogged =
      ((frames.consume (client.stdoutBuffer ++ chunk)).1.foldl (handleBody server child)
        client.unlogged).withBuffer (frames.consume (client.stdoutBuffer ++ chunk)).2 := by
  let arrived : McpStdioClient :=
    { client with
      stdoutBuffer := client.stdoutBuffer ++ chunk
      received := client.received ++ [(child, chunk)] }
  let taken := frames.consume arrived.stdoutBuffer
  have hresult : client.onStdout server child chunk =
      (taken.1.foldl (handleBody server child) arrived).withBuffer taken.2 :=
    consumeFrames_eq child le_rfl
  have hunlogged : taken.1.foldl (handleBody server child) arrived.unlogged =
      (taken.1.foldl (handleBody server child) arrived).unlogged :=
    foldl_hom unlogged (handleBody_unlogged child)
  have htaken := congrArg (withBuffer · taken.2)
    (hunlogged.symm.trans (foldl_withBuffer child client.unlogged taken.1 arrived.stdoutBuffer))
  rw [hresult]
  exact htaken

/-- However the output is cut into chunks, the same frames are handled with the same result. -/
theorem onStdout_flatten (server : StdioServer) (client : McpStdioClient) (child : ℕ)
    (chunk : Bytes) (rest : List Bytes) :
    (rest.foldl (fun client chunk => client.onStdout server child chunk)
        (client.onStdout server child chunk)).unlogged =
      (client.onStdout server child (chunk ++ rest.flatten)).unlogged := by
  induction rest using reverseRecOn with
  | nil => rw [flatten_nil, append_nil, foldl_nil]
  | append_singleton rest last ih =>
    rw [foldl_append, foldl_cons, foldl_nil]
    generalize rest.foldl _ (client.onStdout server child chunk) = read at ih ⊢
    have hbuffer := congrArg stdoutBuffer (ih.trans (onStdout_unlogged child _))
    change read.stdoutBuffer = (frames.consume _).2 at hbuffer
    have hwhole : client.stdoutBuffer ++ (chunk ++ (rest ++ [last]).flatten) =
        client.stdoutBuffer ++ (chunk ++ rest.flatten) ++ last := by simp
    rw [onStdout_unlogged, ih, onStdout_unlogged, onStdout_unlogged, hwhole, hbuffer,
      Reader.consume_append (_ ++ _) last, foldl_append, foldl_withBuffer]
    rfl

/-! ## Runs -/

section

variable {other : McpStdioClient} (hpending : client.pending = other.pending)
include hpending

/-- What the frames of a chunk do to the table depends on the table alone. -/
theorem handleBody_pending
    (child : ℕ) (body : Bytes) :
    (handleBody server child client body).pending =
      (handleBody server child other body).pending := by
  unfold handleBody
  cases parseBody body with
  | none => exact hpending
  | some message =>
    have hsame : ({ client with handled := client.handled ++ [(child, body)] } :
        McpStdioClient).pendingFor? server message =
        ({ other with handled := other.handled ++ [(child, body)] } :
        McpStdioClient).pendingFor? server message := by
      simp only [pendingFor?, hpending]
    unfold handleMessage
    dsimp only
    rw [hsame]
    cases ({ other with handled := other.handled ++ [(child, body)] } :
        McpStdioClient).pendingFor? server message with
    | none => exact hpending
    | some entry =>
      obtain ⟨id, request⟩ := entry
      dsimp only
      cases answerOutcome? server id message <;> simp only [settle, clear, hpending]

theorem allAnswer_congr
    (child : ℕ) (bodies : List Bytes) :
    AllAnswer server child client bodies = AllAnswer server child other bodies := by
  induction bodies generalizing client other with
  | nil => rfl
  | cons body rest ih =>
    have hbody : Answers server client body = Answers server other body := by
      simp only [Answers, pendingFor?, hpending]
    rw [AllAnswer, AllAnswer, hbody, ih (handleBody_pending hpending child body)]

end

/-- A chunk of the current process goes on where the buffer ends. -/
theorem onStdout_spec (hbooked : Booked client) (h : InStep server written client) {child : ℕ}
    {chunk : Bytes} (hattached : child ∈ client.attached)
    (hwritten : client.receivedFrom child ++ chunk <+: output (written child))
    (hprocess : client.process = none ∨ client.process = some child)
    (hpieces : ∀ piece ∈ written child, piece.Unmistakable)
    (hanswers : AllAnswer server child client (frames.consume (client.stdoutBuffer ++ chunk)).1) :
    Booked (client.onStdout server child chunk) ∧
      InStep server written (client.onStdout server child chunk) := by
  let arrived : McpStdioClient :=
    { client with
      stdoutBuffer := client.stdoutBuffer ++ chunk
      received := client.received ++ [(child, chunk)] }
  let bodies := (frames.consume (client.stdoutBuffer ++ chunk)).1
  have hreceived (other : ℕ) : arrived.receivedFrom other =
      client.receivedFrom other ++ if other = child then chunk else [] :=
    receivedFrom_append child other chunk rfl
  have hcurrent (current : ℕ) (hrunning : client.process = some current) : current = child := by
    obtain hnone | hsome := hprocess
    · rw [hnone] at hrunning
      cases hrunning
    · exact Option.some.inj (hrunning.symm.trans hsome)
  -- what is read of the current process so far, and with the chunk
  have hread (current : ℕ) (hrunning : client.process = some current) :
      frames.consume (arrived.receivedFrom current) = (client.handledFrom current ++ bodies,
          (frames.consume (client.stdoutBuffer ++ chunk)).2) := by
    rw [hreceived, if_pos (hcurrent current hrunning), Reader.consume_append,
      h.reading current hrunning]
  have hcomplete (current : ℕ) (hrunning : client.process = some current) :
      client.handledFrom current ++ bodies =
        completeBodies (written current) (arrived.receivedFrom current).length := by
    obtain rfl := hcurrent current hrunning
    have hwhole := consume_output hpieces hwritten
    have hsame : arrived.receivedFrom current = client.receivedFrom current ++ chunk := by
      rw [hreceived, if_pos rfl]
    rw [← hsame, hread current hrunning] at hwhole
    exact hwhole
  have hbooked' : Booked arrived := { hbooked with }
  have hown : OwnAnswers server written arrived := fun settlement hsettlement message hmessage =>
    (h.own settlement hsettlement message hmessage).mono (fun _ hsent => hsent) fun other => by
      rw [hreceived, length_append]
      exact Nat.le_add_right _ _
  have hpending : arrived.pending = client.pending := rfl
  have htable := @allAnswer_congr server _ _ hpending child bodies
  have hall : AllAnswer server child arrived bodies := htable.trans hanswers
  obtain ⟨hbookedNext, hownNext, hsame, hhandled⟩ := handleBodies_spec hall hbooked' hown
    fun body hbody current hrunning => by
      rw [← hcomplete current hrunning]
      exact mem_append_right _ hbody
  have hresult : client.onStdout server child chunk =
      { bodies.foldl (handleBody server child) arrived with
        stdoutBuffer := (frames.consume (client.stdoutBuffer ++ chunk)).2 } :=
    consumeFrames_eq child le_rfl
  have hreceivedNext (other : ℕ) : (client.onStdout server child chunk).receivedFrom other =
      arrived.receivedFrom other := by
    rw [hresult, receivedFrom, receivedFrom]
    rw [hsame.received]
  have hhandledNext (other : ℕ) : (client.onStdout server child chunk).handledFrom other =
      client.handledFrom other ++ if other = child then bodies else [] := by
    apply handledFrom_append
    rw [hresult]
    exact hhandled
  have hold : child < client.spawned := h.fresh child hattached
  refine ⟨?_, ?_⟩
  · rw [hresult]
    exact { hbookedNext with }
  · exact
      { fresh := by
          rw [hresult]
          rw [hsame.attached, hsame.spawned]
          exact h.fresh
        receivedOld := by
          rw [hresult]
          rw [hsame.received, hsame.spawned]
          intro entry hentry
          obtain hbefore | hnew := mem_append.mp hentry
          · exact h.receivedOld entry hbefore
          · rw [mem_singleton.mp hnew]
            exact hold
        handledOld := by
          rw [hresult]
          rw [hhandled, hsame.spawned]
          intro entry hentry
          obtain hbefore | hnew := mem_append.mp hentry
          · exact h.handledOld entry hbefore
          · obtain ⟨body, -, rfl⟩ := mem_map.mp hnew
            exact hold
        reading := fun current hrunning => by
          have hbefore : client.process = some current := by
            rw [hresult] at hrunning
            exact hsame.process.symm.trans hrunning
          rw [hreceivedNext, hread current hbefore, hhandledNext,
            if_pos (hcurrent current hbefore), hresult]
        inOrder := fun current hrunning => by
          have hbefore : client.process = some current := by
            rw [hresult] at hrunning
            exact hsame.process.symm.trans hrunning
          rw [hreceivedNext, hhandledNext, if_pos (hcurrent current hbefore),
            hcomplete current hbefore]
        own := by
          intro settlement hsettlement message hmessage
          rw [hresult] at hsettlement
          refine (hownNext settlement hsettlement message hmessage).mono ?_ fun other => ?_
          · rw [hresult]
            exact fun _ hsent => hsent
          · rw [hreceivedNext, receivedFrom, hsame.received, receivedFrom] }

theorem step_spec (hbooked : Booked client) (h : InStep server written client)
    (hmeets : KeepsApart server written client event)
    (hstep : clientStep? server written client event = some next) :
    Booked next ∧ InStep server written next := by
  cases event with
  | ensureProcess =>
    cases hstep
    cases hensured : client.ensureProcess server with
    | none => exact ⟨hbooked, h⟩
    | some ensured => exact ⟨hbooked.ensureProcess hensured, h.ensureProcess hmeets hensured⟩
  | request request =>
    cases hstep
    exact ⟨hbooked.beginRequest request, h.beginRequest hmeets request⟩
  | proceed call =>
    obtain ⟨request, hrequest, rfl⟩ := Option.map_eq_some_iff.mp hstep
    exact ⟨hbooked.proceedRequest hrequest, h.withdraw (.proceedRequest call request)⟩
  | stdout child chunk =>
    obtain ⟨hprocess, hpieces, hanswers⟩ := hmeets
    rw [clientStep?] at hstep
    split_ifs at hstep with hwritten
    cases hstep
    exact onStdout_spec hbooked h hwritten.1 hwritten.2 hprocess hpieces hanswers
  | timeout id =>
    obtain ⟨timer, htimer, rfl⟩ := Option.map_eq_some_iff.mp hstep
    exact ⟨hbooked.onTimeout htimer, h.withdraw ((Withdraws.of_clear id).of_settle _ _)⟩
  | abort signal =>
    rw [clientStep?] at hstep
    split_ifs at hstep
    cases hstep
    exact ⟨hbooked.abort signal, h.withdraw (.abort signal)⟩
  | close =>
    cases hstep
    exact ⟨hbooked.close, h.withdraw .close⟩
  | exit child status =>
    rw [clientStep?] at hstep
    split_ifs at hstep
    cases hstep
    exact ⟨hbooked.onExit child status, h.withdraw (.onExit child status)⟩
  | processError child message =>
    rw [clientStep?] at hstep
    split_ifs at hstep
    cases hstep
    exact ⟨hbooked.rejectAll _, h.withdraw (.rejectAll _)⟩

theorem booked_start : Booked {} where
  accounted call := by
    rw [if_neg (Nat.not_lt_zero call)]
    rfl
  timed _ := rfl
  listened _ hlistener := absurd hlistener not_mem_nil
  heard _ hlistener := absurd hlistener not_mem_nil
  issued _ _ hrequest := by cases hrequest
  sent _ _ hrequest := by cases hrequest
  current _ _ hrequest := by cases hrequest

theorem inStep_start : InStep server written {} where
  fresh _ hchild := absurd hchild not_mem_nil
  receivedOld _ hentry := absurd hentry not_mem_nil
  handledOld _ hentry := absurd hentry not_mem_nil
  reading _ hprocess := by cases hprocess
  inOrder _ hprocess := by cases hprocess
  own _ hsettlement := absurd hsettlement not_mem_nil

theorem settlesOwn_of_booked (hbooked : Booked client) (h : InStep server written client) :
    SettlesOwn server written client where
  once call hcall := by
    have haccounted := hbooked.accounted call
    rw [if_pos hcall] at haccounted
    rw [waitingCalls, count_append]
    exact haccounted
  ends id request hrequest := by
    have htimed := hbooked.timed id
    rw [hrequest, Option.map_some] at htimed
    obtain ⟨timer, htimer, hcall⟩ := Option.map_eq_some_iff.mp htimed
    have hstep : clientStep? server written client (.timeout id) =
        some (client.onTimeout server id timer) := by
      rw [clientStep?, htimer]
      rfl
    refine ⟨_, hstep, ?_⟩
    -- the books hold after the step, and the call is in the record
    have hnext := (@Booked.onTimeout server _ hbooked _ _ htimer).accounted request.call
    have hmem : request.call ∈ (client.onTimeout server id timer).settledCalls := by
      simp [McpStdioClient.onTimeout, settledCalls, settle, ← hcall]
    have hcount := count_pos_iff.mpr hmem
    split_ifs at hnext <;> omega
  own := h.own
  inOrder := h.inOrder
  noneLeft := hbooked.current

/-- However requests, time-outs, aborts, closes, exits and restarts follow each other, and however
the output of the processes is cut, every request settles once, by its own answer or by none. -/
theorem settlesOwn_of_run {events : List ClientEvent}
    (run : Run (Meeting (KeepsApart server written) (Takes (clientStep? server written))) {} events
      client) : SettlesOwn server written client := by
  have hinv : Booked client ∧ InStep server written client :=
    run.invariant_of_meeting
      (fun _ _ _ hbefore hmeets hstep => step_spec hbefore.1 hbefore.2 hmeets hstep)
      ⟨booked_start, inStep_start⟩
  exact settlesOwn_of_booked hinv.1 hinv.2

/-! ### Two servers, one after the other -/

def plainServer : StdioServer where
  name := ofString "files"
  config := { command := some (ofString "mcp-files") }
  numberValue := Number.value
  numberText _ := []

def listCall : RequestCall := { method := ofString "tools/list", timeoutMs := 30000 }

def answerTo (id : ℕ) : Piece where
  frame := { body := asciiBytes s!"\x7b\"id\":{id},\"result\":0\x7d".toList }

/-- The first process answers the first request, the second one the second. -/
def answering (child : ℕ) : List Piece := [answerTo (child + 1)]

/-- The answer arrives in two chunks, and the process ends before the next one starts. -/
def cleanEvents : List ClientEvent :=
  [.request listCall, .proceed 0, .stdout 0 ((answerTo 1).bytes.take 30),
    .stdout 0 ((answerTo 1).bytes.drop 30), .exit 0 (.code 0), .request listCall, .proceed 1,
    .stdout 1 (answerTo 2).bytes]

theorem cleanEvents_settlesOwn : ∃ client, client.settledCalls = [0, 1] ∧
    SettlesOwn plainServer answering client := by
  have hrun : (execute (guarded (KeepsApart plainServer answering)
      (clientStep? plainServer answering)) {} cleanEvents).map settledCalls = some [0, 1] := by
    decide +kernel
  obtain ⟨client, hclient, hcalls⟩ := Option.map_eq_some_iff.mp hrun
  exact ⟨client, hcalls, settlesOwn_of_run (Run.of_execute_guarded hclient)⟩

/-- The first process ends in the middle of its answer. -/
def brokenOffEvents : List ClientEvent :=
  [.request listCall, .proceed 0, .stdout 0 ((answerTo 1).bytes.take 30), .exit 0 (.code 1),
    .request listCall, .proceed 1, .stdout 1 (answerTo 2).bytes]

/-- The rest of the frame of the first process is cut from the answer of the second. -/
theorem brokenOff_not_settlesOwn : ¬ ∀ (server : StdioServer) (written : ℕ → List Piece)
    (events : List ClientEvent) (client : McpStdioClient),
    Run (Takes (clientStep? server written)) {} events client →
      SettlesOwn server written client := by
  intro hall
  have hrun : (execute (clientStep? plainServer answering) {} brokenOffEvents).map (fun client =>
      (client.process, decide (client.handledFrom 1 =
        completeBodies (answering 1) (client.receivedFrom 1).length))) = some (some 1, false) := by
    decide +kernel
  obtain ⟨client, hclient, hfound⟩ := Option.map_eq_some_iff.mp hrun
  obtain ⟨hprocess, hwrong⟩ := Prod.mk.inj hfound
  have hsettles := hall plainServer answering brokenOffEvents client (Run.of_execute hclient)
  exact of_decide_eq_false hwrong (hsettles.inOrder 1 hprocess)

end Nobie.Mcp
