/-
# The message ledger

What was sent and done for a run is written down in one table. A row may carry an
idempotency key, and the table has at most one row with a key: a later row with a key that is
taken is dropped without a word, whatever the status of the row that has it. Duplicates are
found by looking a key up.
-/

import Mathlib.Data.List.Sort
import Nobie.Foundation.JsString

namespace Nobie.Runs

open Foundation List

inductive MessageLedgerStatus
  | received | pending | started | generated | sent | delivered | succeeded | failed | skipped
  | suppressed | degraded
  deriving DecidableEq

inductive MessageLedgerEventKind
  | ingressReceived | fastReceiptSent | approvalRequested | approvalReceived | toolStarted
  | toolDone | toolFailed | toolSkipped | progressMessageSent | finalAnswerGenerated
  | finalAnswerDelivered | finalAnswerSuppressed | finalValidationEvaluated | textDelivered
  | textDeliveryFailed | textDeliverySuppressed | artifactDelivered | artifactDeliveryFailed
  | approvalAggregated | deliveryAttempted | deliveryReceipted | deliveryBackoffScheduled
  | deliveryFinalized
  | other (kind : JsString)
  deriving DecidableEq

/-- A row of the table. The keys are templates filled in by the code that writes the row; the
types `Key` and `Matter` list the templates of idempotency keys and of delivery keys. -/
structure MessageLedgerEvent (Key Matter : Type) where
  id : JsString
  eventKind : MessageLedgerEventKind
  deliveryKey : Option Matter
  idempotencyKey : Option Key
  status : MessageLedgerStatus
  createdAt : ℤ

/-- The id and the time of a row. -/
structure RowStamp where
  id : JsString
  now : ℤ

variable {Key Matter : Type}

/-- `eventSucceeded` and `messageLedgerEventSucceeded` on a row that is there. -/
def MessageLedgerEvent.succeeded (event : MessageLedgerEvent Key Matter) : Bool :=
  event.status = .delivered || event.status = .succeeded || event.status = .sent

/-- The order of two ids in the table, byte by byte; an id is written in ASCII. -/
def idNotAfter : JsString → JsString → Bool
  | [], _ => true
  | _ :: _, [] => false
  | left :: lefts, right :: rights =>
    left.val < right.val || left.val == right.val && idNotAfter lefts rights

/-- The order of a listing, by time and then by id. -/
def MessageLedgerEvent.NotAfter (left right : MessageLedgerEvent Key Matter) : Prop :=
  left.createdAt < right.createdAt ∨ left.createdAt = right.createdAt ∧ idNotAfter left.id right.id

instance : DecidableRel (@MessageLedgerEvent.NotAfter Key Matter) :=
  fun _ _ => inferInstanceAs (Decidable (_ ∨ _))

/-- `listMessageLedgerEvents` on the rows of a run. -/
def listMessageLedgerEvents (limit : ℕ) (ledger : List (MessageLedgerEvent Key Matter)) :
    List (MessageLedgerEvent Key Matter) :=
  (ledger.insertionSort MessageLedgerEvent.NotAfter).take limit

theorem mem_of_mem_listMessageLedgerEvents {limit : ℕ}
    {ledger : List (MessageLedgerEvent Key Matter)} {event : MessageLedgerEvent Key Matter}
    (hevent : event ∈ listMessageLedgerEvents limit ledger) : event ∈ ledger :=
  (mem_insertionSort _).mp (mem_of_mem_take hevent)

variable [DecidableEq Key]

def getMessageLedgerEventByIdempotencyKey (ledger : List (MessageLedgerEvent Key Matter))
    (key : Key) : Option (MessageLedgerEvent Key Matter) :=
  ledger.find? fun event => event.idempotencyKey = some key

/-- The unique index refuses a row. -/
def keyTaken (ledger : List (MessageLedgerEvent Key Matter)) : MessageLedgerEvent Key Matter → Bool
  | { idempotencyKey := some key, .. } => (getMessageLedgerEventByIdempotencyKey ledger key).isSome
  | _ => false

/-- `recordMessageLedgerEvent`. -/
def recordMessageLedgerEvent (ledger : List (MessageLedgerEvent Key Matter))
    (event : MessageLedgerEvent Key Matter) : List (MessageLedgerEvent Key Matter) :=
  if keyTaken ledger event then ledger else ledger ++ [event]

variable {ledger : List (MessageLedgerEvent Key Matter)} {event : MessageLedgerEvent Key Matter}

variable {key : Key}

variable {found : MessageLedgerEvent Key Matter}

theorem mem_of_getMessageLedgerEvent
    (hfound : getMessageLedgerEventByIdempotencyKey ledger key = some found) :
    found ∈ ledger ∧ found.idempotencyKey = some key := by
  refine ⟨mem_of_find?_eq_some hfound, ?_⟩
  have hkey := find?_some hfound
  rwa [decide_eq_true_eq] at hkey

theorem mem_recordMessageLedgerEvent {row : MessageLedgerEvent Key Matter}
    (hrow : row ∈ recordMessageLedgerEvent ledger event) : row ∈ ledger ∨ row = event := by
  unfold recordMessageLedgerEvent at hrow
  split at hrow
  · exact .inl hrow
  · exact (mem_append.mp hrow).imp_right mem_singleton.mp

/-- A row stays the row of its key. -/
theorem getMessageLedgerEvent_record_of_some
    (hfound : getMessageLedgerEventByIdempotencyKey ledger key = some found) :
    getMessageLedgerEventByIdempotencyKey (recordMessageLedgerEvent ledger event) key =
      some found := by
  unfold recordMessageLedgerEvent
  split
  · exact hfound
  · unfold getMessageLedgerEventByIdempotencyKey at hfound ⊢
    rw [find?_append, hfound]
    rfl

/-- A row of another key leaves a key as it is. -/
theorem getMessageLedgerEvent_record_of_ne (hkey : event.idempotencyKey ≠ some key) :
    getMessageLedgerEventByIdempotencyKey (recordMessageLedgerEvent ledger event) key =
      getMessageLedgerEventByIdempotencyKey ledger key := by
  unfold recordMessageLedgerEvent
  split
  · rfl
  · unfold getMessageLedgerEventByIdempotencyKey
    rw [find?_append, find?_singleton, if_neg (by simpa using hkey), Option.or_none]

/-- A free key takes the row. -/
theorem getMessageLedgerEvent_record_of_none (hkey : event.idempotencyKey = some key)
    (hnone : getMessageLedgerEventByIdempotencyKey ledger key = none) :
    getMessageLedgerEventByIdempotencyKey (recordMessageLedgerEvent ledger event) key =
      some event := by
  have htaken : keyTaken ledger event = false := by
    obtain ⟨id, kind, matter, _ | other, status, createdAt⟩ := event
    · rfl
    · obtain rfl : other = key := Option.some.inj hkey
      simp only [keyTaken]
      rw [hnone]
      rfl
  unfold recordMessageLedgerEvent
  rw [htaken, if_neg Bool.false_ne_true]
  unfold getMessageLedgerEventByIdempotencyKey at hnone ⊢
  rw [find?_append, hnone, Option.none_or, find?_singleton, if_pos (by simpa using hkey)]

end Nobie.Runs
