/-
# Duplicate tool calls

A dispatched call leaves rows in the message ledger under a key made of its tool and its
parameters: one when it starts, before the gates of capability, approval, policy and rate
limit, and one when it ends at a gate or with a result. For the tools whose repetition is
useless a row under the key answers a later call of the same request group. The calls of a
group are records of a state; a step is what happens between two awaits.
-/

import Nobie.Foundation.Transition
import Nobie.Runs.MessageLedger
import Nobie.Runs.StableText

namespace Nobie.Tools

open Foundation Runs JsString

/-! ## Calls and their keys -/

/-- What the host provides: the collation of keys, SHA-256 of a text, and the canonical
parameters of the web retrieval policy at a time of the clock. -/
structure DispatchHost (Digest : Type) where
  collate : JsString → JsString → Bool
  sha256 : List Char → Digest
  webCanonicalParams : JsString → PlainObject → ℤ → Option PlainObject

/-- A call, with the time of the clock when it comes in and when duplicates are looked up. -/
structure ToolCall where
  toolName : JsString
  params : PlainObject
  (now lookupNow : ℤ)

def dedupeToolNames : List JsString :=
  ["web_search", "web_fetch", "screen_capture", "telegram_send_file", "slack_send_file"].map
    ofString

def isDedupeTargetTool (toolName : JsString) : Bool := isAmong dedupeToolNames toolName

def allowRepeatKey : JsString := ofString "allowRepeatReason"

def getAllowRepeatReason (params : PlainObject) : Option JsString :=
  match (params.get? allowRepeatKey).bind PlainValue.asText? with
  | some text => if trim text = [] then none else some (trim text)
  | none => none

/-- The members in the order of their keys, but for the reason; the key `__proto__` is never
assigned as a member. -/
def canonicalToolParams (collate : JsString → JsString → Bool) (params : PlainObject) :
    List (JsString × JsValue) :=
  ownKeyOrder arrayIndex?
    ((sortEntries collate params.members).filter fun member =>
      member.1 ≠ allowRepeatKey && member.1 ≠ ofString "__proto__")

namespace DispatchHost

variable {Digest : Type} (host : DispatchHost Digest)

/-- The text that is hashed for a tool and its parameters. -/
def callText (toolName : JsString) (params : PlainObject) : List Char :=
  stableStringify host.collate (.object
    [(ofString "toolName", .string toolName),
      (ofString "params", .object (canonicalToolParams host.collate params))])

variable (call : ToolCall)

/-- The parameters a call is known by. -/
def idempotencyParams : PlainObject :=
  (host.webCanonicalParams call.toolName call.params call.now).getD call.params

def baseText : List Char := host.callText call.toolName (host.idempotencyParams call)

/-- The texts under which `findDuplicateToolCall` looks a call up: its own, and that of its
parameters made canonical once more. -/
def lookupTexts : List (List Char) :=
  host.baseText call ::
    (host.webCanonicalParams call.toolName (host.idempotencyParams call) call.lookupNow).toList.map
      (host.callText call.toolName)

end DispatchHost

/-- What stands behind the key of a call in the key of a row. -/
inductive ToolRowSuffix
  | started | result | capabilityDenied | policyDenied | rateLimitDenied
  deriving DecidableEq

/-- The idempotency keys of the rows of one request group; that of a call that may be repeated
holds the clock, and so does that of a suppressed one. -/
inductive ToolRowKey (Digest : Type)
  | execution (toolName : JsString) (digest : Digest) (repeatedAt : Option ℤ)
      (suffix : ToolRowSuffix)
  | skipped (toolName : JsString) (digest : Digest) (now : ℤ)
  | foreign (key : JsString)
  deriving DecidableEq

abbrev ToolRow (Digest : Type) : Type := MessageLedgerEvent (ToolRowKey Digest) JsString

abbrev ToolLedger (Digest : Type) : Type := List (ToolRow Digest)

def toolRow {Digest : Type} (stamp : RowStamp) (eventKind : MessageLedgerEventKind)
    (key : ToolRowKey Digest) (status : MessageLedgerStatus) : ToolRow Digest where
  id := stamp.id
  eventKind := eventKind
  deliveryKey := none
  idempotencyKey := some key
  status := status
  createdAt := stamp.now

/-! ## Dispatching -/

/-- How a call ends behind its started row. -/
inductive CallExit
  | capabilityDenied | denied | policyDenied | rateLimited | succeeded | failed
  deriving DecidableEq

def CallExit.suffix : CallExit → ToolRowSuffix
  | .capabilityDenied => .capabilityDenied
  | .policyDenied => .policyDenied
  | .rateLimited => .rateLimitDenied
  | .denied | .succeeded | .failed => .result

def CallExit.status : CallExit → MessageLedgerStatus
  | .succeeded => .succeeded
  | _ => .failed

def CallExit.eventKind : CallExit → MessageLedgerEventKind
  | .succeeded => .toolDone
  | _ => .toolFailed

/-- Where a call is. A refused one was turned away before its key was made: no web access, no
such tool, not on this channel, or isolated. -/
inductive CallPhase
  | refused | suppressed | awaitingApproval | executing
  | ended (exit : CallExit)
  deriving DecidableEq

/-- The call has left its started row. -/
def CallPhase.started : CallPhase → Bool
  | .refused | .suppressed => false
  | .awaitingApproval | .executing | .ended _ => true

/-- The call has done its work or is doing it. -/
def CallPhase.atWork : CallPhase → Bool
  | .executing | .ended .succeeded => true
  | _ => false

structure CallRecord where
  call : ToolCall
  phase : CallPhase

/-- The answers of the gates that a call passes. -/
structure Gates where
  (admitted capability approvalRequired policy rateLimit : Bool)

structure DispatchState (Digest : Type) where
  ledger : ToolLedger Digest := []
  calls : List CallRecord := []

section Dispatch

variable {Digest : Type} [DecidableEq Digest] (host : DispatchHost Digest)

variable (call : ToolCall) (ledger : ToolLedger Digest)

def digestOf : Digest := host.sha256 (host.baseText call)

/-- The time in the key of a call that may be repeated. -/
def repeatedAt : Option ℤ := (getAllowRepeatReason call.params).map fun _ => call.now

def executionKey (suffix : ToolRowSuffix) : ToolRowKey Digest :=
  .execution call.toolName (digestOf host call) (repeatedAt call) suffix

/-- The row of a key of a call that is not repeated: that of its result, or else that of its
start. -/
def rowOfDigest (toolName : JsString) (digest : Digest) : Option (ToolRow Digest) :=
  (getMessageLedgerEventByIdempotencyKey ledger
    (.execution toolName digest none .result)).or
      (getMessageLedgerEventByIdempotencyKey ledger (.execution toolName digest none .started))

def findDuplicateToolCall (call : ToolCall) : Option (ToolRow Digest) :=
  (host.lookupTexts call).findSome? fun text => rowOfDigest ledger call.toolName (host.sha256 text)

/-- The row that suppresses a call. -/
def suppressor (call : ToolCall) : Option (ToolRow Digest) :=
  if isDedupeTargetTool call.toolName && (getAllowRepeatReason call.params).isNone then
    findDuplicateToolCall host ledger call
  else none

def recordStarted (call : ToolCall) (stamp : RowStamp) : ToolLedger Digest :=
  recordMessageLedgerEvent ledger
    (toolRow stamp .toolStarted (executionKey host call .started) .started)

def recordExit (call : ToolCall) (exit : CallExit) (stamp : RowStamp) : ToolLedger Digest :=
  recordMessageLedgerEvent ledger
    (toolRow stamp exit.eventKind (executionKey host call exit.suffix) exit.status)

/-- What the gates behind the approval make of a call. -/
def gateExit (gates : Gates) : Option CallExit :=
  if !gates.policy then some .policyDenied
  else if !gates.rateLimit then some .rateLimited
  else none

/-- A call whose approval is settled is executed or ends at a gate. -/
def passGates (call : ToolCall) (gates : Gates) (stamp : RowStamp) :
    ToolLedger Digest × CallPhase :=
  match gateExit gates with
  | some exit => (recordExit host ledger call exit stamp, .ended exit)
  | none => (ledger, .executing)

/-- A call up to its first await: whether it is suppressed, and where the gates leave it. -/
def arrive (call : ToolCall) (gates : Gates) (stamps : ℕ → RowStamp) :
    ToolLedger Digest × CallPhase :=
  if !gates.admitted then (ledger, .refused)
  else if (suppressor host ledger call).isSome then
    (recordMessageLedgerEvent ledger (toolRow (stamps 0) .toolSkipped
      (.skipped call.toolName (digestOf host call) call.now) .skipped), .suppressed)
  else
    let ledger := recordStarted host ledger call (stamps 0)
    if !gates.capability then
      (recordExit host ledger call .capabilityDenied (stamps 1), .ended .capabilityDenied)
    else if gates.approvalRequired then (ledger, .awaitingApproval)
    else passGates host ledger call gates (stamps 1)

/-- The steps: a call comes in, the approval of a waiting call is settled, an execution ends,
and other code writes a row of its own. -/
inductive DispatchStep
  | arrive (call : ToolCall) (gates : Gates) (stamps : ℕ → RowStamp)
  | settle (place : ℕ) (granted : Bool) (gates : Gates) (stamp : RowStamp)
  | finish (place : ℕ) (success : Bool) (stamp : RowStamp)
  | record (stamp : RowStamp) (eventKind : MessageLedgerEventKind) (key : JsString)
      (status : MessageLedgerStatus)

/-- A call with what became of it. -/
def DispatchState.put (state : DispatchState Digest) (place : ℕ) (record : CallRecord)
    (after : ToolLedger Digest × CallPhase) : DispatchState Digest where
  ledger := after.1
  calls := state.calls.set place { record with phase := after.2 }

def dispatchStep? (state : DispatchState Digest) : DispatchStep → Option (DispatchState Digest)
  | .arrive call gates stamps =>
    let after := arrive host state.ledger call gates stamps
    some { ledger := after.1, calls := state.calls ++ [⟨call, after.2⟩] }
  | .settle place granted gates stamp =>
    match state.calls[place]? with
    | some ⟨call, .awaitingApproval⟩ =>
      some (state.put place ⟨call, .awaitingApproval⟩ (
        if granted then passGates host state.ledger call gates stamp
        else (recordExit host state.ledger call .denied stamp, .ended .denied)))
    | _ => none
  | .finish place success stamp =>
    match state.calls[place]? with
    | some ⟨call, .executing⟩ =>
      let exit : CallExit := if success then .succeeded else .failed
      some (state.put place ⟨call, .executing⟩
        (recordExit host state.ledger call exit stamp, .ended exit))
    | _ => none
  | .record stamp eventKind key status =>
    some { state with
      ledger := recordMessageLedgerEvent state.ledger
        (toolRow stamp eventKind (.foreign key) status) }

end Dispatch

/-! ## Laws

Of two equivalent calls the later one is suppressed. But the row also stays of a call that waits
for its approval, was denied, ended at a gate or failed. -/

open List Option Bool

/-! ## What is asked of the suppression -/

section Statements

variable {Digest : Type} [DecidableEq Digest] (host : DispatchHost Digest)

/-- No reason to repeat the call is given. -/
def Unrepeated (call : ToolCall) : Prop := (getAllowRepeatReason call.params).isNone

/-- The call is one that a duplicate suppresses. -/
def Suppressible (call : ToolCall) : Prop := isDedupeTargetTool call.toolName ∧ Unrepeated call

/-- The later call is for the same tool, and its parameters are written the same, or come out
the same when they are made canonical. -/
def Equivalent (earlier later : ToolCall) : Prop :=
  earlier.toolName = later.toolName ∧ host.baseText earlier ∈ host.lookupTexts later

/-- An equivalent call has succeeded or is executing. -/
def EquivalentAtWork (state : DispatchState Digest) (call : ToolCall) : Prop :=
  ∃ record ∈ state.calls, record.phase.atWork ∧ Equivalent host record.call call

/-- A call that is answered as a duplicate is one of a call that is at work. -/
def SuppressesRightly (state : DispatchState Digest) : DispatchStep → Prop
  | .arrive call gates stamps =>
    (arrive host state.ledger call gates stamps).2 = .suppressed → EquivalentAtWork host state call
  | _ => True

/-- No call for a suppressible tool meets the key of a call that has started, unless an
equivalent call is at work: not while that call waits for its approval, and not after it was
denied, stopped at a gate or failed. -/
def MeetsWork (state : DispatchState Digest) : DispatchStep → Prop
  | .arrive call gates _ =>
    gates.admitted → Suppressible call →
      (∃ record ∈ state.calls, record.phase.started ∧ Unrepeated record.call ∧
        record.call.toolName = call.toolName ∧
          digestOf host record.call ∈ (host.lookupTexts call).map host.sha256) →
        EquivalentAtWork host state call
  | _ => True

/-- No two equivalent calls that are not to be repeated execute at one time. -/
def NeverBothExecute (state : DispatchState Digest) : Prop :=
  state.calls.Pairwise fun earlier later =>
    Unrepeated earlier.call → Suppressible later.call → Equivalent host earlier.call later.call →
      ¬ (earlier.phase = .executing ∧ later.phase = .executing)

end Statements

/-! ## Rows and starts -/

variable {Digest : Type} {host : DispatchHost Digest}

variable {call : ToolCall} {ledger : ToolLedger Digest} {event : ToolRow Digest}
  {key : ToolRowKey Digest} (stamp : RowStamp)

theorem unrepeated_of_repeatedAt (hnone : repeatedAt call = none) :
    Unrepeated call := isNone_iff_eq_none.mpr (map_eq_none_iff.mp hnone)

theorem repeatedAt_of_unrepeated (hunrepeated : Unrepeated call) : repeatedAt call = none :=
  map_eq_none_iff.mpr (isNone_iff_eq_none.mp hunrepeated)

/-- The rows of a call that has started are told. -/
theorem told_of_executionKey {starts : List (ToolCall × Bool)} (hcall : (call, true) ∈ starts)
    {suffix found : ToolRowSuffix} {toolName : JsString} {digest : Digest}
    (hkey : some (executionKey host call found) = some (.execution toolName digest none suffix)) :
    ∃ call, (call, true) ∈ starts ∧ Unrepeated call ∧ call.toolName = toolName ∧
      digestOf host call = digest := by
  obtain ⟨htool, hdigest, hrepeated, -⟩ := ToolRowKey.execution.inj (Option.some.inj hkey)
  exact ⟨call, hcall, unrepeated_of_repeatedAt hrepeated, htool, hdigest⟩

variable {state : DispatchState Digest}

/-- The calls, with whether they have started. -/
def DispatchState.starts (state : DispatchState Digest) : List (ToolCall × Bool) :=
  state.calls.map fun record => (record.call, record.phase.started)

theorem starts_append (state : DispatchState Digest) (ledger : ToolLedger Digest)
    (record : CallRecord) :
    DispatchState.starts { ledger, calls := state.calls ++ [record] } =
      state.starts ++ [(record.call, record.phase.started)] := map_append

/-- A call that has started stays started. -/
theorem starts_put {place : ℕ} {record : CallRecord} {after : ToolLedger Digest × CallPhase}
    (hrecord : state.calls[place]? = some record) (hstarted : record.phase.started)
    (hafter : after.2.started) : (state.put place record after).starts = state.starts := by
  unfold DispatchState.starts DispatchState.put
  refine ext_getElem? fun index => ?_
  rw [getElem?_map, getElem?_map, getElem?_set]
  split_ifs with hplace hlength
  · subst hplace
    rw [hrecord, map_some, map_some, hstarted, hafter]
  · subst hplace
    rw [getElem?_eq_none (not_lt.mp hlength)]
  · rfl

theorem mem_starts_of_getElem {place : ℕ} {record : CallRecord}
    (hrecord : state.calls[place]? = some record) (hstarted : record.phase.started) :
    (record.call, true) ∈ state.starts :=
  hstarted ▸ mem_map_of_mem (mem_of_getElem? hrecord)

variable [DecidableEq Digest]

/-- What holds of the rows and the calls that have started. -/
structure RowsTell (host : DispatchHost Digest) (ledger : ToolLedger Digest)
    (starts : List (ToolCall × Bool)) : Prop where
  keys : ∀ row ∈ ledger, ∀ toolName digest suffix,
    row.idempotencyKey = some (.execution toolName digest none suffix) →
      ∃ call, (call, true) ∈ starts ∧ Unrepeated call ∧ call.toolName = toolName ∧
        digestOf host call = digest
  rows : ∀ call, (call, true) ∈ starts → Unrepeated call →
    (getMessageLedgerEventByIdempotencyKey ledger
      (.execution call.toolName (digestOf host call) none .started)).isSome
  once : starts.Pairwise fun earlier later => earlier.2 → later.2 →
    Unrepeated earlier.1 → Suppressible later.1 → ¬ Equivalent host earlier.1 later.1

theorem isSome_record (hsome : (getMessageLedgerEventByIdempotencyKey ledger key).isSome) :
    (getMessageLedgerEventByIdempotencyKey (recordMessageLedgerEvent ledger event) key).isSome =
      true := by
  obtain ⟨found, hfound⟩ := isSome_iff_exists.mp hsome
  rw [getMessageLedgerEvent_record_of_some hfound]
  rfl

/-- A row that is recorded is there, or another one with its key is. -/
theorem isSome_record_self (hkey : event.idempotencyKey = some key) :
    (getMessageLedgerEventByIdempotencyKey (recordMessageLedgerEvent ledger event) key).isSome =
      true := by
  cases hfound : getMessageLedgerEventByIdempotencyKey ledger key with
  | none =>
    rw [getMessageLedgerEvent_record_of_none hkey hfound]
    rfl
  | some found => exact isSome_record (hfound ▸ rfl)

section

variable {ledger : ToolLedger Digest} {starts : List (ToolCall × Bool)}
  (h : RowsTell host ledger starts)
include h

/-- A row of a call that has started, or none of a call, changes nothing. -/
theorem RowsTell.record (event : ToolRow Digest)
    (hevent : ∀ toolName digest suffix,
      event.idempotencyKey = some (.execution toolName digest none suffix) →
        ∃ call, (call, true) ∈ starts ∧ Unrepeated call ∧ call.toolName = toolName ∧
          digestOf host call = digest) :
    RowsTell host (recordMessageLedgerEvent ledger event) starts where
  keys := by
    intro row hrow toolName digest suffix hkey
    obtain hold | rfl := mem_recordMessageLedgerEvent hrow
    · exact h.keys row hold toolName digest suffix hkey
    · exact hevent toolName digest suffix hkey
  rows := fun call hcall hunrepeated => isSome_record (h.rows call hcall hunrepeated)
  once := h.once

theorem RowsTell.recordExit {call : ToolCall} (hcall : (call, true) ∈ starts)
    (exit : CallExit) (stamp : RowStamp) :
    RowsTell host (Tools.recordExit host ledger call exit stamp) starts :=
  h.record _ fun _ _ _ hkey => told_of_executionKey hcall hkey

end

theorem RowsTell.passGates {starts : List (ToolCall × Bool)} (h : RowsTell host ledger starts)
    (hcall : (call, true) ∈ starts) (gates : Gates) (stamp : RowStamp) :
    RowsTell host (Tools.passGates host ledger call gates stamp).1 starts := by
  unfold Tools.passGates
  split
  · exact h.recordExit hcall _ stamp
  · exact h

theorem started_passGates (ledger : ToolLedger Digest) (call : ToolCall) (gates : Gates)
    (stamp : RowStamp) : (passGates host ledger call gates stamp).2.started := by
  unfold passGates
  split <;> rfl

/-! ## Suppression -/

/-- A row is found for a call just where a call with one of its keys has started. -/
theorem isSome_suppressor_iff {starts : List (ToolCall × Bool)} (h : RowsTell host ledger starts)
    (call : ToolCall) :
    (suppressor host ledger call).isSome ↔
      Suppressible call ∧ ∃ earlier, (earlier, true) ∈ starts ∧ Unrepeated earlier ∧
        earlier.toolName = call.toolName ∧
          digestOf host earlier ∈ (host.lookupTexts call).map host.sha256 := by
  have hrow (digest : Digest) : (rowOfDigest ledger call.toolName digest).isSome ↔
      ∃ earlier, (earlier, true) ∈ starts ∧ Unrepeated earlier ∧
        earlier.toolName = call.toolName ∧ digestOf host earlier = digest := by
    unfold rowOfDigest
    rw [isSome_or, or_eq_true]
    constructor
    · rintro (hresult | hstarted)
      · obtain ⟨row, hfound⟩ := isSome_iff_exists.mp hresult
        obtain ⟨hmem, hkey⟩ := mem_of_getMessageLedgerEvent hfound
        exact h.keys row hmem _ _ _ hkey
      · obtain ⟨row, hfound⟩ := isSome_iff_exists.mp hstarted
        obtain ⟨hmem, hkey⟩ := mem_of_getMessageLedgerEvent hfound
        exact h.keys row hmem _ _ _ hkey
    · rintro ⟨earlier, hearlier, hunrepeated, htool, rfl⟩
      rw [← htool]
      exact .inr (h.rows earlier hearlier hunrepeated)
  unfold suppressor
  split_ifs with hsuppressible
  · rw [and_eq_true] at hsuppressible
    rw [findDuplicateToolCall, findSome?_isSome_iff]
    constructor
    · rintro ⟨text, htext, hfound⟩
      obtain ⟨earlier, hearlier, hunrepeated, htool, hdigest⟩ := (hrow _).mp hfound
      exact ⟨hsuppressible, earlier, hearlier, hunrepeated, htool, hdigest ▸ mem_map_of_mem htext⟩
    · rintro ⟨-, earlier, hearlier, hunrepeated, htool, hdigest⟩
      obtain ⟨text, htext, hsame⟩ := mem_map.mp hdigest
      exact ⟨text, htext, (hrow _).mpr ⟨earlier, hearlier, hunrepeated, htool, hsame.symm⟩⟩
  · refine iff_of_false Bool.false_ne_true fun hboth => hsuppressible ?_
    rw [and_eq_true]
    exact hboth.1

/-- A call that is neither turned away nor suppressed has started. -/
theorem arrive_cases (ledger : ToolLedger Digest) (call : ToolCall) (gates : Gates)
    (stamps : ℕ → RowStamp) :
    (gates.admitted = false ∧ arrive host ledger call gates stamps = (ledger, .refused)) ∨
    (gates.admitted ∧ (suppressor host ledger call).isSome ∧
      (arrive host ledger call gates stamps).2 = .suppressed ∧
      (arrive host ledger call gates stamps).1 = recordMessageLedgerEvent ledger
        (toolRow (stamps 0) .toolSkipped (.skipped call.toolName (digestOf host call) call.now)
          .skipped)) ∨
    (gates.admitted ∧ (suppressor host ledger call).isSome = false ∧
      (arrive host ledger call gates stamps).2.started ∧
      ∀ starts, RowsTell host (recordStarted host ledger call (stamps 0)) starts →
        (call, true) ∈ starts → RowsTell host (arrive host ledger call gates stamps).1 starts) := by
  unfold arrive
  by_cases hadmitted : gates.admitted
  · rw [hadmitted]
    by_cases hsuppressed : (suppressor host ledger call).isSome
    · exact .inr (.inl ⟨rfl, hsuppressed, by simp [hsuppressed], by simp [hsuppressed]⟩)
    · refine .inr (.inr ⟨rfl, eq_false_iff.mpr hsuppressed, ?_, ?_⟩)
      · simp only [Bool.not_true, false_eq_true, if_false, hsuppressed]
        split_ifs
        · rfl
        · rfl
        · exact started_passGates _ _ _ _
      · intro starts h hcall
        simp only [Bool.not_true, false_eq_true, if_false, hsuppressed]
        split_ifs
        · exact h.recordExit hcall _ _
        · exact h
        · exact h.passGates hcall _ _
  · rw [not_eq_true] at hadmitted
    exact .inl ⟨hadmitted, by simp [hadmitted]⟩

/-! ## Runs -/

theorem rowsTell_empty : RowsTell host ([] : ToolLedger Digest) [] where
  keys := fun _ hrow => absurd hrow not_mem_nil
  rows := fun _ hcall => absurd hcall not_mem_nil
  once := .nil

section

variable {starts : List (ToolCall × Bool)} (h : RowsTell host ledger starts)
include h

/-- A call that has not started changes nothing. -/
theorem RowsTell.append_idle
    (call : ToolCall) : RowsTell host ledger (starts ++ [(call, false)]) where
  keys := by
    intro row hrow toolName digest suffix hkey
    obtain ⟨found, hfound, htold⟩ := h.keys row hrow toolName digest suffix hkey
    exact ⟨found, mem_append_left _ hfound, htold⟩
  rows := by
    intro found hfound hunrepeated
    obtain hold | hnew := mem_append.mp hfound
    · exact h.rows found hold hunrepeated
    · cases congrArg Prod.snd (mem_singleton.mp hnew)
  once := by
    refine pairwise_append.mpr ⟨h.once, pairwise_singleton _ _, ?_⟩
    intro earlier _ later hlater _ hstarted
    rw [mem_singleton.mp hlater] at hstarted
    exact Bool.noConfusion hstarted

/-- A call that starts because no row suppresses it leaves its row. -/
theorem RowsTell.append_started
    (hfree : (suppressor host ledger call).isSome = false) (stamp : RowStamp) :
    RowsTell host (recordStarted host ledger call stamp) (starts ++ [(call, true)]) where
  keys := by
    intro row hrow toolName digest suffix hkey
    obtain hold | rfl := mem_recordMessageLedgerEvent hrow
    · obtain ⟨found, hfound, htold⟩ := h.keys row hold toolName digest suffix hkey
      exact ⟨found, mem_append_left _ hfound, htold⟩
    · exact told_of_executionKey (mem_append_cons_self) hkey
  rows := by
    intro found hfound hunrepeated
    obtain hold | hnew := mem_append.mp hfound
    · exact isSome_record (h.rows found hold hunrepeated)
    · obtain rfl : found = call := congrArg Prod.fst (mem_singleton.mp hnew)
      refine isSome_record_self ?_
      rw [← repeatedAt_of_unrepeated hunrepeated]
      rfl
  once := by
    refine pairwise_append.mpr ⟨h.once, pairwise_singleton _ _, ?_⟩
    rintro ⟨earlier, started⟩ hearlier later hlater rfl - hunrepeated hsuppressible ⟨htool, htext⟩
    obtain rfl := mem_singleton.mp hlater
    have hsome := (isSome_suppressor_iff h call).mpr
      ⟨hsuppressible, earlier, hearlier, hunrepeated, htool, mem_map_of_mem htext⟩
    cases hfree.symm.trans hsome

end

theorem rowsTell_step {next : DispatchState Digest} {step : DispatchStep}
    (h : RowsTell host state.ledger state.starts) (hnext : dispatchStep? host state step = some next) :
    RowsTell host next.ledger next.starts := by
  cases step with
  | arrive call gates stamps =>
    cases hnext
    rw [starts_append]
    obtain ⟨-, hrefused⟩ | ⟨-, -, hphase, hledger⟩ | ⟨-, hfree, hstarted, hrows⟩ :=
      @arrive_cases _ host _ state.ledger call gates stamps
    · rw [hrefused]
      exact h.append_idle call
    · dsimp only
      rw [hphase, hledger]
      exact (h.append_idle call).record _ fun _ _ _ hkey => by simp [toolRow] at hkey
    · dsimp only
      rw [hstarted]
      exact hrows _ (h.append_started hfree _) (mem_append_cons_self)
  | settle place granted gates stamp =>
    simp only [dispatchStep?] at hnext
    split at hnext
    · next call hrecord =>
      cases hnext
      have hcall := mem_starts_of_getElem hrecord rfl
      rw [starts_put hrecord rfl]
      · unfold DispatchState.put
        split_ifs
        · exact h.passGates hcall gates stamp
        · exact h.recordExit hcall .denied stamp
      · split_ifs
        · exact started_passGates _ _ _ _
        · rfl
    · cases hnext
  | finish place success stamp =>
    simp only [dispatchStep?] at hnext
    split at hnext
    · next call hrecord =>
      cases hnext
      have hcall := mem_starts_of_getElem hrecord rfl
      rw [starts_put hrecord rfl rfl]
      exact h.recordExit hcall _ stamp
    · cases hnext
  | record stamp eventKind key status =>
    cases hnext
    exact h.record _ fun _ _ _ hkey => by simp [toolRow] at hkey

theorem rowsTell_of_run {steps : List DispatchStep} {last : DispatchState Digest}
    (run : Run (Takes (dispatchStep? host)) {} steps last) :
    RowsTell host last.ledger last.starts :=
  run.invariant (fun _ _ _ h hnext => rowsTell_step h hnext) rowsTell_empty

/-- Of two equivalent calls that are not to be repeated, at most one has ever started. -/
def StartedOnce (host : DispatchHost Digest) (state : DispatchState Digest) : Prop :=
  state.calls.Pairwise fun earlier later => earlier.phase.started → later.phase.started →
    Unrepeated earlier.call → Suppressible later.call → ¬ Equivalent host earlier.call later.call

/-- However calls interleave, settle and fail, none is started a second time. -/
theorem calls_startedOnce (steps : List DispatchStep) (last : DispatchState Digest) :
    Run (Reaching (StartedOnce host) (Takes (dispatchStep? host))) {} steps last ↔
      Run (Takes (dispatchStep? host)) {} steps last :=
  Run.reaching_iff (fun state : DispatchState Digest => RowsTell host state.ledger state.starts)
    (fun _ _ _ h hnext => rowsTell_step h hnext) (fun _ h => pairwise_map.mp h.once) rowsTell_empty

/-- Of a run no two equivalent calls execute at one time. -/
theorem neverBothExecute_of_run {steps : List DispatchStep} {last : DispatchState Digest}
    (run : Run (Takes (dispatchStep? host)) {} steps last) : NeverBothExecute host last := by
  have hpairs := pairwise_map.mp (rowsTell_of_run run).once
  refine hpairs.imp fun {earlier later} honce hunrepeated hsuppressible hequivalent => ?_
  rintro ⟨hearlier, hlater⟩
  exact honce (by rw [hearlier]; rfl) (by rw [hlater]; rfl) hunrepeated hsuppressible hequivalent

/-- A step suppresses rightly just where it meets work. -/
theorem suppressesRightly_iff_meetsWork (h : RowsTell host state.ledger state.starts)
    (step : DispatchStep) : SuppressesRightly host state step ↔ MeetsWork host state step := by
  cases step with
  | arrive call gates stamps =>
    have hsuppressor := isSome_suppressor_iff h call
    have hstarted : (∃ earlier, (earlier, true) ∈ state.starts ∧ Unrepeated earlier ∧
          earlier.toolName = call.toolName ∧
            digestOf host earlier ∈ (host.lookupTexts call).map host.sha256) ↔
        ∃ record ∈ state.calls, record.phase.started ∧ Unrepeated record.call ∧
          record.call.toolName = call.toolName ∧
            digestOf host record.call ∈ (host.lookupTexts call).map host.sha256 := by
      constructor
      · rintro ⟨earlier, hearlier, htold⟩
        obtain ⟨record, hrecord, hsame⟩ := mem_map.mp hearlier
        obtain ⟨rfl, hstarted⟩ := Prod.mk.inj hsame
        exact ⟨record, hrecord, hstarted, htold⟩
      · rintro ⟨record, hrecord, hstarted, htold⟩
        exact ⟨record.call, hstarted ▸ mem_map_of_mem hrecord, htold⟩
    rw [hstarted] at hsuppressor
    have hanswer : (arrive host state.ledger call gates stamps).2 = .suppressed ↔
        gates.admitted ∧ (suppressor host state.ledger call).isSome := by
      obtain ⟨hadmitted, hrefused⟩ | ⟨hadmitted, hsome, hphase, -⟩ |
          ⟨hadmitted, hfree, hphase, -⟩ :=
        @arrive_cases _ host _ state.ledger call gates stamps
      · rw [hrefused, hadmitted]
        exact iff_of_false CallPhase.noConfusion fun hboth => Bool.false_ne_true hboth.1
      · exact iff_of_true hphase ⟨hadmitted, hsome⟩
      · refine iff_of_false (fun hsuppressed => ?_) fun hboth =>
          Bool.false_ne_true (hfree.symm.trans hboth.2)
        rw [hsuppressed] at hphase
        cases hphase
    unfold SuppressesRightly MeetsWork
    dsimp only
    rw [hanswer, hsuppressor]
    exact ⟨fun hright hadmitted hsuppressible hmet =>
      hright ⟨hadmitted, hsuppressible, hmet⟩,
      fun hmeets hall => hmeets hall.1 hall.2.1 hall.2.2⟩
  | settle | finish | record => exact Iff.rfl

/-- In a run the calls are suppressed rightly, and never do two equivalent ones execute at one
time, just where every call for a suppressible tool that meets the key of a started one finds
an equivalent one at work. -/
theorem duplicateSuppression_iff (steps : List DispatchStep) (last : DispatchState Digest) :
    Run (Meeting (SuppressesRightly host) (Takes (dispatchStep? host))) {} steps last ∧
        NeverBothExecute host last ↔
      Run (Meeting (MeetsWork host) (Takes (dispatchStep? host))) {} steps last := by
  have hswap {condition other : DispatchState Digest → DispatchStep → Prop}
      (hother : ∀ state step, RowsTell host state.ledger state.starts →
        condition state step → other state step)
      (run : Run (Meeting condition (Takes (dispatchStep? host))) {} steps last) :
      Run (Meeting other (Takes (dispatchStep? host))) {} steps last ∧
        RowsTell host last.ledger last.starts := by
    induction run with
    | start => exact ⟨.start _, rowsTell_empty⟩
    | extend prior step taken ih =>
      obtain ⟨hprior, hrows⟩ := ih
      exact ⟨hprior.extend step ⟨hother _ _ hrows taken.1, taken.2⟩, rowsTell_step hrows taken.2⟩
  constructor
  · rintro ⟨run, -⟩
    exact (hswap (fun _ step h => (suppressesRightly_iff_meetsWork h step).mp) run).1
  · intro run
    refine ⟨(hswap (fun _ step h => (suppressesRightly_iff_meetsWork h step).mpr) run).1, ?_⟩
    exact neverBothExecute_of_run (run.mono fun _ _ _ taken => taken.2)

/-! ## A call that failed -/

/-- A host whose digest of a text is the text. -/
def textDigestHost : DispatchHost (List Char) where
  collate := idNotAfter
  sha256 := id
  webCanonicalParams := fun _ _ _ => none

/-- A capture of the screen. -/
def captureCall (now : ℤ) : ToolCall := ⟨JsString.ofString "screen_capture", .empty, now, now⟩

/-- Every gate is open, and no approval is needed. -/
def openGates : Gates := ⟨true, true, false, true, true⟩

def stampAt (now : ℤ) (_ : ℕ) : RowStamp := ⟨[], now⟩

/-- The capture fails. -/
def failedCapture : List DispatchStep :=
  [.arrive (captureCall 1) openGates (stampAt 1), .finish 0 false (stampAt 2 0)]

theorem phases_failedCapture :
    ((execute (dispatchStep? textDigestHost) {} failedCapture).map fun state =>
      (state.calls.map CallRecord.phase,
        (arrive textDigestHost state.ledger (captureCall 3) openGates (stampAt 3)).2)) =
      some ([.ended .failed], .suppressed) := by
  decide +kernel

/-- The capture after the failed one is answered as a duplicate, though no capture has been
made and none is at work. -/
theorem failedCapture_suppresses :
    ∃ state : DispatchState (List Char),
      Run (Takes (dispatchStep? textDigestHost)) {} failedCapture state ∧
        ¬ SuppressesRightly textDigestHost state (.arrive (captureCall 3) openGates (stampAt 3)) := by
  obtain ⟨state, hstate, htold⟩ := map_eq_some_iff.mp phases_failedCapture
  obtain ⟨hphases, hsuppressed⟩ := Prod.mk.inj htold
  refine ⟨state, Run.of_execute hstate, fun hright => ?_⟩
  obtain ⟨record, hrecord, hatWork, -⟩ := hright hsuppressed
  have hphase : record.phase ∈ state.calls.map CallRecord.phase := mem_map_of_mem hrecord
  rw [hphases, mem_singleton] at hphase
  rw [hphase] at hatWork
  cases hatWork

end Nobie.Tools
