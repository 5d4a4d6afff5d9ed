/-
# What a restart resumes

The projection folds a page of the ledger into one entry for each sub-session; the last
event that says something about the status wins, a progress report included. The claim of
the projection is about the whole ledger, and a sub-session that ended stays ended until it
is queued or started again. The two agree exactly if the page holds all matching events and
no sub-session reports progress after its end.
-/

import Nobie.Foundation.Chronicle
import Nobie.Orchestration.EventLedger

namespace Nobie.Orchestration

open Foundation List JsString OrderedMap

/-! ## The fold -/

inductive MonitoredStatus
  | queued | running | completed | failed | cancelled | unknown
  deriving DecidableEq

structure MonitoredSubSession where
  subSessionId : JsString
  agentId : Option JsString
  status : MonitoredStatus
  latestEventKind : OrchestrationEventKind
  updatedAt : JsNumber

/-- The status after an event, given the one before it. -/
def monitoredStatus (eventKind : OrchestrationEventKind) (previous : Option MonitoredStatus) :
    MonitoredStatus :=
  match eventKind with
  | .subSessionCompleted => .completed
  | .subSessionFailed => .failed
  | .subSessionCancelled => .cancelled
  | .subSessionQueued => .queued
  | .subSessionStarted | .subSessionProgressReported => .running
  | _ => previous.getD .unknown

variable (event : OrchestrationEvent) (subSessionId : JsString) (events : List OrchestrationEvent)

def monitorEvent (subSessions : OrderedMap JsString MonitoredSubSession)
    (event : OrchestrationEvent) : OrderedMap JsString MonitoredSubSession :=
  match event.subSessionId with
  | none | some [] => subSessions
  | some subSessionId =>
    let previous := subSessions.get? subSessionId
    subSessions.set subSessionId
      { subSessionId
        agentId := event.agentId <|> previous.bind MonitoredSubSession.agentId
        status := monitoredStatus event.eventKind (previous.map MonitoredSubSession.status)
        latestEventKind := event.eventKind
        updatedAt := event.createdAt }

/-- `String(row.sequence)`. -/
def OrchestrationEvent.cursor : String := String.ofList (Nat.toDigits 10 event.sequence)

/-- The part of the snapshot that the projection reads. -/
structure MonitoringSnapshot where
  latestCursor : Option String
  subSessions : List MonitoredSubSession

variable (ledger : EventLedger) (query : OrchestrationEventQuery)

def buildOrchestrationMonitoringSnapshot : MonitoringSnapshot :=
  let events := listOrchestrationEvents ledger query
  { latestCursor := events.getLast?.map OrchestrationEvent.cursor
    subSessions := (events.foldl monitorEvent ∅).entries.map Prod.snd }

structure RestartResumeProjection where
  latestCursor : Option String
  activeSubSessionIds : List JsString
  activeSubSessions : List MonitoredSubSession

def MonitoredSubSession.isActive (subSession : MonitoredSubSession) : Bool :=
  subSession.status = .queued || subSession.status = .running

def buildRestartResumeProjection : RestartResumeProjection :=
  let snapshot := buildOrchestrationMonitoringSnapshot ledger query
  let activeSubSessions := snapshot.subSessions.filter MonitoredSubSession.isActive
  { latestCursor := snapshot.latestCursor
    activeSubSessionIds := activeSubSessions.map MonitoredSubSession.subSessionId
    activeSubSessions }

/-! ## What is claimed -/

/-- The event is one of the sub-session. An empty id names none. -/
def Concerns (event : OrchestrationEvent) : Prop :=
  event.subSessionId = some subSessionId ∧ subSessionId ≠ []

instance (subSessionId : JsString) (event : OrchestrationEvent) :
    Decidable (Concerns subSessionId event) :=
  inferInstanceAs (Decidable (_ ∧ _))

/-- The sub-session is queued or started by the event. -/
def Opens (event : OrchestrationEvent) : Prop :=
  Concerns subSessionId event ∧
    (event.eventKind = .subSessionQueued ∨ event.eventKind = .subSessionStarted)

def Progresses (event : OrchestrationEvent) : Prop :=
  Concerns subSessionId event ∧ event.eventKind = .subSessionProgressReported

/-- The sub-session is completed, failed or cancelled by the event. -/
def Ends (event : OrchestrationEvent) : Prop :=
  Concerns subSessionId event ∧ (event.eventKind = .subSessionCompleted ∨
    event.eventKind = .subSessionFailed ∨ event.eventKind = .subSessionCancelled)

/-- The sub-session ended and was not queued or started since. -/
def Finished (subSessionId : JsString) : Prop :=
  StandsAtEnd (Ends subSessionId) (Opens subSessionId) events

def ActiveIn (subSessionId : JsString) : Prop :=
  (∃ event ∈ events, Opens subSessionId event ∨ Progresses subSessionId event) ∧
    ¬ Finished events subSessionId

/-- The projection is the fold of the whole ledger. -/
structure FoldsWholeLedger (ledger : EventLedger) (query : OrchestrationEventQuery) : Prop where
  active : ∀ subSessionId,
    subSessionId ∈ (buildRestartResumeProjection ledger query).activeSubSessionIds ↔
      ActiveIn (matchingEvents ledger query) subSessionId
  cursor : (buildRestartResumeProjection ledger query).latestCursor =
    (matchingEvents ledger query).getLast?.map OrchestrationEvent.cursor
  /-- What is appended after the end of a sub-session without queueing or starting it does
  not make it active again. -/
  finished : ∀ before after subSessionId, ledger.events = before ++ after →
    Finished (before.filter query.matches) subSessionId →
    (∀ event ∈ after, ¬ Concerns subSessionId event ∨ Progresses subSessionId event) →
    subSessionId ∉ (buildRestartResumeProjection ledger query).activeSubSessionIds

/-- The sub-session ended without being queued or started since, and there is a progress
report that no end follows. -/
def ReportsAfterEnd (subSessionId : JsString) : Prop :=
  Finished events subSessionId ∧ StandsAtEnd (Progresses subSessionId) (Ends subSessionId) events

/-! ## The last word of the fold -/

/-- The status the fold arrives at. -/
def statusAfter (subSessionId : JsString) : Option MonitoredStatus :=
  ((events.foldl monitorEvent ∅).get? subSessionId).map MonitoredSubSession.status

variable (events : List OrchestrationEvent) {subSessionId : JsString}

theorem statusAfter_concat (event : OrchestrationEvent) (subSessionId : JsString) :
    statusAfter (events ++ [event]) subSessionId =
      if Concerns subSessionId event then
        some (monitoredStatus event.eventKind (statusAfter events subSessionId))
      else statusAfter events subSessionId := by
  unfold statusAfter
  rw [foldl_append, foldl_cons, foldl_nil]
  generalize events.foldl monitorEvent ∅ = subSessions
  unfold monitorEvent
  split
  · next hnone => rw [if_neg fun hconcerns => by rw [hconcerns.1] at hnone; cases hnone]
  · next hempty =>
    refine (if_neg fun hconcerns => ?_).symm
    rw [hconcerns.1] at hempty
    exact hconcerns.2 (Option.some.inj hempty)
  · next own hne hown =>
    by_cases hsame : own = subSessionId
    · subst hsame
      have hconcerns : Concerns own event := ⟨hown, hne⟩
      rw [if_pos hconcerns, get?_set_self]
      rfl
    · rw [if_neg fun hconcerns => hsame (Option.some.inj (hown.symm.trans hconcerns.1)),
        get?_set_of_ne _ _ hsame]

/-- The sub-session is queued or running by the fold. -/
def FoldedActive (events : List OrchestrationEvent) (subSessionId : JsString) : Prop :=
  statusAfter events subSessionId = some .queued ∨ statusAfter events subSessionId = some .running

/-- By the fold a sub-session is active exactly if no end follows some event of its life. -/
theorem foldedActive_iff (subSessionId : JsString) :
    FoldedActive events subSessionId ↔
      StandsAtEnd (fun event => Opens subSessionId event ∨ Progresses subSessionId event)
        (Ends subSessionId) events := by
  induction events using List.reverseRecOn with
  | nil =>
    refine iff_of_false ?_ not_standsAtEnd_nil
    rintro (hstatus | hstatus) <;> cases hstatus
  | append_singleton events event ih =>
    rw [standsAtEnd_concat, ← ih]
    unfold FoldedActive
    rw [statusAfter_concat]
    by_cases hconcerns : Concerns subSessionId event
    · rw [if_pos hconcerns]
      simp only [Opens, Progresses, Ends, hconcerns, true_and]
      cases event.eventKind <;> simp [monitoredStatus] <;>
        cases statusAfter events subSessionId <;> simp
    · simp only [Opens, Progresses, Ends, hconcerns, false_and, if_false, false_or, not_false_eq_true, and_true, or_self]

/-- Sub-sessions are listed under their own ids. -/
theorem subSessionId_of_mem {subSession : MonitoredSubSession}
    (hmem : (subSessionId, subSession) ∈ (events.foldl monitorEvent ∅).entries) :
    subSession.subSessionId = subSessionId := by
  induction events using List.reverseRecOn with
  | nil => cases hmem
  | append_singleton events event ih =>
    rw [foldl_append, foldl_cons, foldl_nil] at hmem
    generalize events.foldl monitorEvent ∅ = subSessions at hmem ih
    unfold monitorEvent at hmem
    split at hmem
    · exact ih hmem
    · exact ih hmem
    · obtain hnew | hold := mem_of_mem_insertEntry hmem
      · cases hnew
        rfl
      · exact ih hold

/-- The projection lists what the fold of the page finds active. -/
theorem mem_activeSubSessionIds {ledger : EventLedger} {query : OrchestrationEventQuery} :
    subSessionId ∈ (buildRestartResumeProjection ledger query).activeSubSessionIds ↔
      FoldedActive (listOrchestrationEvents ledger query) subSessionId := by
  have hactive (subSession : MonitoredSubSession) : subSession.isActive ↔
      some subSession.status = some .queued ∨ some subSession.status = some .running := by
    simp [MonitoredSubSession.isActive]
  unfold FoldedActive statusAfter
  constructor
  · intro hmem
    obtain ⟨subSession, hlisted, rfl⟩ := mem_map.mp hmem
    obtain ⟨hentry, hstatus⟩ := mem_filter.mp hlisted
    obtain ⟨⟨key, _⟩, hmember, rfl⟩ := mem_map.mp hentry
    rw [subSessionId_of_mem _ hmember, get?_of_mem_entries hmember]
    exact (hactive _).mp hstatus
  · intro hstatus
    obtain ⟨subSession, hfound⟩ : ∃ subSession, ((listOrchestrationEvents ledger query).foldl
        monitorEvent ∅).get? subSessionId = some subSession := by
      refine Option.isSome_iff_exists.mp ?_
      obtain hstatus | hstatus := hstatus <;>
        (obtain ⟨subSession, hfound, -⟩ := Option.map_eq_some_iff.mp hstatus; rw [hfound]; rfl)
    rw [hfound] at hstatus
    have hentry := mem_entries_of_get? hfound
    refine mem_map.mpr ⟨subSession, ?_, subSessionId_of_mem _ hentry⟩
    exact mem_filter.mpr ⟨mem_map.mpr ⟨_, hentry, rfl⟩, (hactive _).mpr hstatus⟩

/-! ## Where the fold and the claim part -/

/-- The fold takes a sub-session that ended for active exactly where it reports progress
after its end. -/
theorem foldedActive_and_finished_iff (subSessionId : JsString) :
    FoldedActive events subSessionId ∧ Finished events subSessionId ↔
      ReportsAfterEnd events subSessionId := by
  rw [foldedActive_iff]
  constructor
  · rintro ⟨hactive, hfinished⟩
    refine ⟨hfinished, ?_⟩
    unfold Finished at hfinished
    induction events using List.reverseRecOn with
    | nil => exact absurd hfinished not_standsAtEnd_nil
    | append_singleton events event ih =>
      rw [standsAtEnd_concat] at hactive hfinished ⊢
      obtain hlive | ⟨hactive, hend⟩ := hactive
      · obtain hend | ⟨-, hopen⟩ := hfinished
        · obtain hopens | hprogresses := hlive
          · exact absurd hend.2 (by obtain ⟨-, hkind | hkind⟩ := hopens <;> simp [hkind])
          · exact .inl hprogresses
        · exact .inl (hlive.resolve_left hopen)
      · obtain hended | ⟨hfinished, -⟩ := hfinished
        · exact absurd hended hend
        · exact .inr ⟨ih hactive hfinished, hend⟩
  · rintro ⟨hfinished, hreports⟩
    exact ⟨hreports.mono fun _ hprogresses => .inr hprogresses, hfinished⟩

/-- A sub-session that is active in the ledger is active by the fold. -/
theorem ActiveIn.foldedActive {events : List OrchestrationEvent}
    (hactive : ActiveIn events subSessionId) : FoldedActive events subSessionId := by
  rw [foldedActive_iff]
  obtain ⟨⟨event, hmem, hevent⟩, hfinished⟩ := hactive
  obtain hstands | hended := @standsAtEnd_or _
    (fun event => Opens subSessionId event ∨ Progresses subSessionId event) (Ends subSessionId)
    events event hmem (.inl hevent)
  · exact hstands
  · obtain ⟨before, found, after, hevents, hfound, hafter⟩ := hended
    exact absurd ⟨before, found, after, hevents, hfound,
      fun later hlater hopens => hafter later hlater (.inl hopens)⟩ hfinished

theorem ActiveIn.of_foldedActive {events : List OrchestrationEvent}
    (hactive : FoldedActive events subSessionId) (hfinished : ¬ Finished events subSessionId) :
    ActiveIn events subSessionId := by
  obtain ⟨before, event, after, rfl, hevent, -⟩ := (foldedActive_iff events subSessionId).mp hactive
  exact ⟨⟨event, by simp, hevent⟩, hfinished⟩

/-! ## The page -/

theorem cursor_injective {first second : OrchestrationEvent}
    (hcursor : first.cursor = second.cursor) : first.sequence = second.sequence := by
  have hdigits := String.ofList_injective hcursor
  have hnumber := congrArg (Nat.ofDigitChars 10 · 0) hdigits
  simpa using hnumber

/-- The last event of a page is the last of all exactly if the page holds all. -/
theorem cursor_take_iff {events : List OrchestrationEvent} {size : ℕ}
    (hincreasing : (events.map OrchestrationEvent.sequence).Pairwise (· < ·)) (hsize : 0 < size) :
    (events.take size).getLast?.map OrchestrationEvent.cursor =
        events.getLast?.map OrchestrationEvent.cursor ↔ events.length ≤ size := by
  constructor
  · intro hcursor
    by_contra hlonger
    have hlt : size < events.length := Nat.lt_of_not_le hlonger
    have hpage : (events.take size).getLast? = some (events[size - 1]) := by
      rw [getLast?_eq_getElem?, length_take, Nat.min_eq_left hlt.le,
        getElem?_take_of_lt (by omega), getElem?_eq_getElem]
    have hlast : events.getLast? = some (events[events.length - 1]) := by
      rw [getLast?_eq_getElem?, getElem?_eq_getElem]
    rw [hpage, hlast, Option.map_some, Option.map_some, Option.some.injEq] at hcursor
    have hordered := pairwise_iff_getElem.mp (pairwise_map.mp hincreasing) (size - 1)
      (events.length - 1) (by omega) (by omega) (by omega)
    exact absurd (cursor_injective hcursor) hordered.ne
  · intro hle
    rw [take_of_length_le hle]

theorem matchingEvents_increasing :
    ((matchingEvents ledger query).map OrchestrationEvent.sequence).Pairwise (· < ·) :=
  ledger.increasing.sublist (filter_sublist.map _)

/-- What is appended without queueing or starting a sub-session leaves it finished. -/
theorem Finished.append {events more : List OrchestrationEvent}
    (hfinished : Finished events subSessionId)
    (hmore : ∀ event ∈ more, ¬ Concerns subSessionId event ∨ Progresses subSessionId event) :
    Finished (events ++ more) subSessionId := by
  refine StandsAtEnd.append hfinished fun event hevent hopens => ?_
  obtain hother | hprogresses := hmore event hevent
  · exact hother hopens.1
  · obtain ⟨-, hkind | hkind⟩ := hopens <;> exact absurd (hkind.symm.trans hprogresses.2) (by simp)

/-- The projection of a query without limit is the fold of the whole ledger exactly if all
matching events fit one page and no sub-session reports progress after its end. -/
theorem foldsWholeLedger_iff {ledger : EventLedger} {query : OrchestrationEventQuery}
    (hlimit : query.limit = none) :
    FoldsWholeLedger ledger query ↔ (matchingEvents ledger query).length ≤ 500 ∧
      ∀ subSessionId, ¬ ReportsAfterEnd (matchingEvents ledger query) subSessionId := by
  have hpage : listOrchestrationEvents ledger query = (matchingEvents ledger query).take 500 := by
    rw [listOrchestrationEvents, hlimit, pageLength]
  have hcursor := @cursor_take_iff _ 500 (matchingEvents_increasing ledger query) (by decide)
  have hlatest : (buildRestartResumeProjection ledger query).latestCursor =
      ((matchingEvents ledger query).take 500).getLast?.map OrchestrationEvent.cursor := by
    rw [← hpage]
    rfl
  constructor
  · intro hfolds
    have hlength := hcursor.mp (hlatest.symm.trans hfolds.cursor)
    refine ⟨hlength, fun subSessionId hreports => ?_⟩
    obtain ⟨hactive, hfinished⟩ := (foldedActive_and_finished_iff _ _).mpr hreports
    have hlisted := mem_activeSubSessionIds.mpr
      (by rw [hpage, take_of_length_le hlength]; exact hactive)
    exact ((hfolds.active subSessionId).mp hlisted).2 hfinished
  · rintro ⟨hlength, hreports⟩
    have hactive (subSessionId : JsString) :
        subSessionId ∈ (buildRestartResumeProjection ledger query).activeSubSessionIds ↔
          ActiveIn (matchingEvents ledger query) subSessionId := by
      rw [mem_activeSubSessionIds, hpage, take_of_length_le hlength]
      refine ⟨fun hfolded => .of_foldedActive hfolded fun hfinished => ?_, ActiveIn.foldedActive⟩
      exact hreports subSessionId ((foldedActive_and_finished_iff _ _).mp ⟨hfolded, hfinished⟩)
    refine ⟨hactive, hlatest.trans (hcursor.mpr hlength), ?_⟩
    intro before after subSessionId hledger hfinished hafter hlisted
    have hmatching : matchingEvents ledger query =
        before.filter query.matches ++ after.filter query.matches := by
      rw [matchingEvents, hledger, filter_append]
    refine ((hactive subSessionId).mp hlisted).2 (hmatching ▸ hfinished.append ?_)
    exact fun event hevent => hafter event (mem_filter.mp hevent).1

/-! ## Ledgers of one sub-session -/

def emptyQuery : OrchestrationEventQuery :=
  ⟨none, none, none, none, none, none, none, none, none, none, none⟩

/-- An event of the sub-session `s`. -/
def eventOf (sequence : ℕ) (eventKind : OrchestrationEventKind) : OrchestrationEvent where
  sequence := sequence
  createdAt := .ofNat sequence
  eventKind := eventKind
  runId := none
  parentRunId := none
  requestGroupId := none
  subSessionId := some (ofString "s")
  agentId := none
  teamId := none
  exchangeId := none
  approvalId := none
  correlationId := ofString "c"
  dedupeKey := none
  source := ofString "runtime"
  severity := .info
  summary := ofString "m"
  payload := .object []

def completedLedger : EventLedger where
  events := [eventOf 1 .subSessionStarted, eventOf 2 .subSessionCompleted]
  lastSequence := 2
  increasing := by decide
  bounded := by decide

theorem completedLedger_folds :
    emptyQuery.limit = none ∧ FoldsWholeLedger completedLedger emptyQuery := by
  refine ⟨rfl, (foldsWholeLedger_iff rfl).mpr ⟨by decide, fun subSessionId hreports => ?_⟩⟩
  obtain ⟨before, event, after, hevents, hprogresses, -⟩ := hreports.2
  have hmem : event ∈ matchingEvents completedLedger emptyQuery := by
    rw [hevents]
    simp
  have hevent := (mem_filter.mp hmem).1
  simp only [completedLedger, mem_cons, not_mem_nil, or_false] at hevent
  obtain rfl | rfl := hevent
  · exact absurd hprogresses.2 (by simp [eventOf])
  · exact absurd hprogresses.2 (by simp [eventOf])

/-- A progress report that arrives after the end. -/
def lateLedger : EventLedger where
  events := [eventOf 1 .subSessionStarted, eventOf 2 .subSessionCompleted] ++
    [eventOf 3 .subSessionProgressReported]
  lastSequence := 3
  increasing := by decide
  bounded := by decide

theorem lateLedger_not_folds : ¬ FoldsWholeLedger lateLedger emptyQuery := by
  intro hfolds
  have hconcerns (sequence : ℕ) (eventKind : OrchestrationEventKind) :
      Concerns (ofString "s") (eventOf sequence eventKind) := ⟨rfl, by decide⟩
  have hfinished : Finished ([eventOf 1 .subSessionStarted, eventOf 2 .subSessionCompleted].filter
      emptyQuery.matches) (ofString "s") :=
    ⟨[eventOf 1 .subSessionStarted], eventOf 2 .subSessionCompleted, [], rfl,
      ⟨hconcerns _ _, .inl rfl⟩, by simp⟩
  refine hfolds.finished _ _ _ rfl hfinished ?_ ?_
  · simp only [forall_mem_singleton]
    exact .inr ⟨hconcerns _ _, rfl⟩
  · decide

end Nobie.Orchestration
