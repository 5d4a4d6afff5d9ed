/-
# Compaction of a root session

The messages of a session are replaced by a block with its pinned working set, a block with the
capsule that a model's summary gives, and a tail of the messages. What is pinned is read from the
lines of the messages, also from the lines that an earlier compaction has written.
-/

import Nobie.Foundation.JsNumber
import Nobie.Foundation.JsString

namespace Nobie.Memory

open Foundation JsString

/-! ## Texts -/

def newline : CodeUnit := codeUnit 10

def blank : CodeUnit := codeUnit 32

def tab : CodeUnit := codeUnit 9

def carriageReturn : CodeUnit := codeUnit 13

def colon : CodeUnit := codeUnit 58

/-- Each run of blanks and tabs becomes one blank. -/
def collapseBlanks : Bool → JsString → JsString
  | _, [] => []
  | inBlank, unit :: rest =>
    if unit = blank ∨ unit = tab then
      if inBlank then collapseBlanks true rest else blank :: collapseBlanks true rest
    else unit :: collapseBlanks false rest

/-- Of a run of line breaks two stay at most; so many have been seen. -/
def collapseBreaks : ℕ → JsString → JsString
  | _, [] => []
  | seen, unit :: rest =>
    if unit = newline then
      if seen < 2 then unit :: collapseBreaks (seen + 1) rest else collapseBreaks seen rest
    else unit :: collapseBreaks 0 rest

variable (value : JsString) (values : List JsString) (preferredTailSize : Option JsNumber)

def normalizeWhitespace : JsString :=
  trim (collapseBreaks 0 (collapseBlanks false
    (value.filter fun unit => unit ≠ carriageReturn)))

def normalizeString : Option JsString :=
  let trimmed := normalizeWhitespace value
  if trimmed = [] then none else some trimmed

/-- The values that a normalization leaves, each once. -/
def normalizeAll (normalize : JsString → Option JsString) (values : List JsString) :
    List JsString :=
  values.foldl (fun normalized value =>
    match normalize value with
    | none => normalized
    | some trimmed =>
      if isAmong normalized trimmed then normalized else normalized ++ [trimmed]) []

def normalizeStringArray : List JsString := normalizeAll normalizeString values

/-- The capsules' own `normalizeString` only trims. -/
def normalizeCapsuleString : Option JsString :=
  let trimmed := trim value
  if trimmed = [] then none else some trimmed

def joinLines (lines : List JsString) : JsString := joinWith newline lines

/-- `values.join("; ")`. -/
def joinValues : List JsString → JsString
  | [] => []
  | [value] => value
  | value :: rest => value ++ ofString "; " ++ joinValues rest

def truncateSnapshotSummary (summary : JsString) (maxChars : ℕ) : JsString :=
  let normalized := normalizeWhitespace summary
  if normalized.length ≤ maxChars then normalized
  else (normalized.take (maxChars - 1)).rdropWhile isSpace ++ ofString "…"

/-! ## Messages -/

inductive MessageRole
  | user | assistant
  deriving DecidableEq

/-- A block of a message; the input of a tool is given by its JSON text. -/
inductive MessageContent
  | text (text : JsString)
  | toolUse (id name : String) (input : JsString)
  | toolResult (toolUseId : String) (content : JsString)
  deriving DecidableEq

inductive MessageBody
  | plain (text : JsString)
  | blocks (blocks : List MessageContent)
  deriving DecidableEq

structure Message where
  role : MessageRole
  content : MessageBody
  deriving DecidableEq

def Message.blocks (message : Message) : List MessageContent :=
  match message.content with
  | .plain _ => []
  | .blocks blocks => blocks

/-- A use waits for its result, and a result takes one use with its id out. -/
def settleBlock (pendingToolUseIds : List String) : MessageContent → List String
  | .text _ => pendingToolUseIds
  | .toolUse id _ _ => pendingToolUseIds ++ [id]
  | .toolResult toolUseId _ => pendingToolUseIds.erase toolUseId

variable (messages : List Message)

def hasBalancedToolUsePairs : Bool :=
  (messages.foldl (fun pendingToolUseIds message =>
    message.blocks.foldl settleBlock pendingToolUseIds) []).isEmpty

def renderBlock : MessageContent → JsString
  | .text text => text
  | .toolUse _ name input => ofString s!"[tool_use:{name}] " ++ input
  | .toolResult toolUseId content => ofString s!"[tool_result:{toolUseId}] " ++ content

def renderMessageForTranscript (message : Message) : JsString :=
  match message.content with
  | .plain text => normalizeWhitespace text
  | .blocks blocks => normalizeWhitespace (joinLines (blocks.map renderBlock))

def estimateContextTokens : ℕ :=
  max 1 (((joinLines (messages.map renderMessageForTranscript)).length + 3) / 4)

/-! ## Structured lines -/

/-- The lines of a text that say something, trimmed. An empty line says nothing, so it is all one
whether a run of line breaks is one separator or several. -/
def linesOfText (text : JsString) : List JsString :=
  ((text.splitOnP fun unit => unit = newline).map trim).filter fun line => line ≠ []

def extractStructuredMemoryLines : List JsString :=
  messages.flatMap fun message => linesOfText (renderMessageForTranscript message)

/-- What is in front of the first colon, and what is behind it. -/
def splitAtColon : JsString → Option (JsString × JsString)
  | [] => none
  | unit :: rest =>
    if unit = colon then some ([], rest)
    else (splitAtColon rest).map fun parts => (unit :: parts.1, parts.2)

/-- The keys that a line can begin with. -/
inductive MemoryKey
  | activeTask | objective | pendingApproval | pendingDelivery | targetSelector | artifactReceipt
  | resultReview | userCorrection | retryBoundary | finalDeliveryBlock | confirmedFact | constraint
  | decision | recoveryState
  deriving DecidableEq

def MemoryKey.text : MemoryKey → String
  | .activeTask => "active_task"
  | .objective => "objective"
  | .pendingApproval => "pending_approval"
  | .pendingDelivery => "pending_delivery"
  | .targetSelector => "target_selector"
  | .artifactReceipt => "artifact_receipt"
  | .resultReview => "result_review"
  | .userCorrection => "user_correction"
  | .retryBoundary => "retry_boundary"
  | .finalDeliveryBlock => "final_delivery_block"
  | .confirmedFact => "confirmed_fact"
  | .constraint => "constraint"
  | .decision => "decision"
  | .recoveryState => "recovery_state"

variable (key : MemoryKey)

/-- The value of a line under a key, if the line has that key and a value. -/
def valueUnder (line : JsString) : Option JsString :=
  match splitAtColon line with
  | none => none
  | some (front, back) =>
    if front = [] then none
    else if trim back = [] then none
    else if trim front = ofString key.text then some (trim back)
    else none

structure RootSessionDeterministicState where
  (activeTaskIds activeObjectives pendingApprovals pendingDelivery : List JsString)
  (explicitTargetSelectors latestArtifactReceipts unresolvedResultReviewItems : List JsString)
  (explicitUserCorrections retryDoNotRepeatBoundary finalDeliveryBlockReasons : List JsString)
  (confirmedFacts mustKeepConstraints decisions recoveryStates : List JsString)

/-- The values of the messages' lines under a key. -/
def valuesUnder (messages : List Message) : List JsString :=
  (extractStructuredMemoryLines messages).filterMap (valueUnder key)

def extractRootSessionDeterministicState (requestGroupId : Option JsString) :
    RootSessionDeterministicState :=
  let group := ((requestGroupId.map trim).filter fun id => id ≠ []).toList
  { activeTaskIds := normalizeStringArray (group ++ valuesUnder .activeTask messages)
    activeObjectives := normalizeStringArray (valuesUnder .objective messages)
    pendingApprovals := normalizeStringArray (valuesUnder .pendingApproval messages)
    pendingDelivery := normalizeStringArray (valuesUnder .pendingDelivery messages)
    explicitTargetSelectors := normalizeStringArray (valuesUnder .targetSelector messages)
    latestArtifactReceipts := normalizeStringArray (valuesUnder .artifactReceipt messages)
    unresolvedResultReviewItems := normalizeStringArray (valuesUnder .resultReview messages)
    explicitUserCorrections := normalizeStringArray (valuesUnder .userCorrection messages)
    retryDoNotRepeatBoundary := normalizeStringArray (valuesUnder .retryBoundary messages)
    finalDeliveryBlockReasons := normalizeStringArray (valuesUnder .finalDeliveryBlock messages)
    confirmedFacts := normalizeStringArray (valuesUnder .confirmedFact messages)
    mustKeepConstraints := normalizeStringArray (valuesUnder .constraint messages)
    decisions := normalizeStringArray (valuesUnder .decision messages)
    recoveryStates := normalizeStringArray (valuesUnder .recoveryState messages) }

/-! ## The pinned working set -/

inductive RootSessionCompactionReasonCode
  | blockedByPendingFinalization | blockedByUnmatchedToolPair | blockedByCancellationOrRecovery

/-- What stays pinned. A reference to an artifact is its note. -/
structure RootSessionPinnedWorkingSet where
  (activeObjectives confirmedFacts constraints decisions pendingItems artifactRefs : List JsString)
  blockedReasonCodes : List RootSessionCompactionReasonCode

/-- An item with its key in front. -/
def marked (item : JsString) : JsString := ofString key.text ++ colon :: item

def buildRootSessionPinnedWorkingSet (state : RootSessionDeterministicState) :
    RootSessionPinnedWorkingSet where
  pendingItems := normalizeStringArray (state.pendingApprovals.map (marked .pendingApproval) ++
    state.pendingDelivery.map (marked .pendingDelivery) ++
    state.unresolvedResultReviewItems.map (marked .resultReview))
  constraints := normalizeStringArray (state.mustKeepConstraints ++
    state.explicitTargetSelectors.map (marked .targetSelector) ++
    state.explicitUserCorrections.map (marked .userCorrection) ++
    state.finalDeliveryBlockReasons.map (marked .finalDeliveryBlock))
  decisions := normalizeStringArray (state.decisions ++
    state.retryDoNotRepeatBoundary.map (marked .retryBoundary))
  activeObjectives := normalizeStringArray (state.activeObjectives ++
    state.activeTaskIds.map (marked .activeTask))
  artifactRefs := normalizeStringArray state.latestArtifactReceipts
  confirmedFacts := state.confirmedFacts
  blockedReasonCodes :=
    (if state.finalDeliveryBlockReasons = [] then [] else [.blockedByPendingFinalization]) ++
      (if state.recoveryStates = [] then [] else [.blockedByCancellationOrRecovery])

/-! ## The capsule -/

/-- What a model's answer says, or the fallback for it. -/
structure RootSessionStructuredSummary where
  whatHappened : JsString
  (currentGoal stillOpen confirmedFacts mustKeepConstraints artifactsAndReceipts : List JsString)
  (toolSideEffectBoundary retryDoNotRepeat handoffReadyContext : List JsString)

/-- What is written of a capsule; a reference to an artifact is its note. -/
structure MemoryCapsule where
  summary : JsString
  (activeObjectives confirmedFacts decisions constraints pendingItems artifactRefs : List JsString)
  recoveryHints : List JsString

variable (capsule : MemoryCapsule)

def normalizeMemoryCapsule : MemoryCapsule where
  summary := trim capsule.summary
  activeObjectives := normalizeAll normalizeCapsuleString capsule.activeObjectives
  confirmedFacts := normalizeAll normalizeCapsuleString capsule.confirmedFacts
  decisions := normalizeAll normalizeCapsuleString capsule.decisions
  constraints := normalizeAll normalizeCapsuleString capsule.constraints
  pendingItems := normalizeAll normalizeCapsuleString capsule.pendingItems
  artifactRefs := normalizeAll normalizeCapsuleString capsule.artifactRefs
  recoveryHints := normalizeAll normalizeCapsuleString capsule.recoveryHints

def buildRootSessionCapsuleSummary (summary : RootSessionStructuredSummary) : JsString :=
  let parts := [summary.whatHappened,
    if summary.currentGoal = [] then []
      else ofString "current_goal: " ++ joinValues summary.currentGoal,
    if summary.stillOpen = [] then []
      else ofString "still_open: " ++ joinValues summary.stillOpen]
  truncateSnapshotSummary (joinLines (parts.filter fun part => part ≠ [])) 1200

/-- The capsule that is kept: what the model says, under what is pinned. -/
def compactionCapsule (workingSet : RootSessionPinnedWorkingSet)
    (summary : RootSessionStructuredSummary) : MemoryCapsule :=
  let capsule := normalizeMemoryCapsule
    { summary := buildRootSessionCapsuleSummary summary
      activeObjectives := summary.currentGoal
      confirmedFacts := summary.confirmedFacts
      decisions := summary.toolSideEffectBoundary
      constraints := summary.mustKeepConstraints
      pendingItems := summary.stillOpen
      artifactRefs := normalizeStringArray summary.artifactsAndReceipts
      recoveryHints := summary.handoffReadyContext }
  normalizeMemoryCapsule { capsule with
    activeObjectives := normalizeStringArray (workingSet.activeObjectives ++ summary.currentGoal)
    confirmedFacts := normalizeStringArray (workingSet.confirmedFacts ++ summary.confirmedFacts)
    decisions := normalizeStringArray (workingSet.decisions ++ summary.toolSideEffectBoundary ++
      summary.retryDoNotRepeat.map (marked .retryBoundary))
    constraints := normalizeStringArray (workingSet.constraints ++ summary.mustKeepConstraints)
    pendingItems := normalizeStringArray (workingSet.pendingItems ++ summary.stillOpen)
    artifactRefs := normalizeStringArray (workingSet.artifactRefs ++ summary.artifactsAndReceipts) }

/-! ## The blocks of the rewritten window -/

def renderSection (label : String) (values : List JsString) : JsString :=
  let normalized := normalizeStringArray values
  if normalized = [] then ofString s!"{label}: []"
  else joinLines (ofString s!"{label}:" ::
    normalized.map fun item => ofString "- " ++ item)

def renderPinnedWorkingSetPromptBlock (workingSet : RootSessionPinnedWorkingSet) : JsString :=
  joinLines ([ofString "[pinned_working_set]",
    renderSection "active_objectives" workingSet.activeObjectives,
    renderSection "confirmed_facts" workingSet.confirmedFacts,
    renderSection "constraints" workingSet.constraints,
    renderSection "decisions" workingSet.decisions,
    renderSection "pending_items" workingSet.pendingItems,
    renderSection "artifact_refs" workingSet.artifactRefs].filter fun part => part ≠ [])

def renderCompactedCapsulePromptBlock : JsString :=
  joinLines ([ofString "[latest_compacted_capsule]",
    ofString "summary: " ++ capsule.summary,
    renderSection "active_objectives" capsule.activeObjectives,
    renderSection "confirmed_facts" capsule.confirmedFacts,
    renderSection "constraints" capsule.constraints,
    renderSection "pending_items" capsule.pendingItems,
    renderSection "artifact_refs" capsule.artifactRefs,
    renderSection "recovery_hints" capsule.recoveryHints].filter fun part => part ≠ [])

/-! ## Rewriting and compacting -/

structure RootSessionCompactionRewriteResult where
  messages : List Message
  tailMessageCount : ℕ
  degradedTailMessageCount : Option ℕ
  resultTokenEstimate : ℕ

/-- The tail that is asked for, as a number that is not negative. -/
def preferredTail : JsNumber :=
  JsNumber.max (.ofNat 0) (JsNumber.floor (preferredTailSize.getD (.ofNat 8)))

/-- How many messages stay of so many. -/
def tailSize (preferred : JsNumber) (length : ℕ) : ℕ :=
  match preferred with
  | .finite value => min ⌊value⌋.toNat length
  | .infinity => length
  | .nan | .negInfinity => 0

def keptTail (preferredTailSize : Option JsNumber) : List Message :=
  messages.drop (messages.length - tailSize (preferredTail preferredTailSize) messages.length)

def rewriteRootSessionActiveWindow (pinnedWorkingSet : RootSessionPinnedWorkingSet)
    (preferredTailSize : Option JsNumber)
    (maintenanceRestoreBlock promptTimeRecallBlock : Option JsString) :
    RootSessionCompactionRewriteResult :=
  let tail := keptTail messages preferredTailSize
  let recalled := (promptTimeRecallBlock.filter fun block => block ≠ []).toList.map fun block =>
    ⟨.user, .plain block⟩
  let rewrittenMessages : List Message :=
    ⟨.user, .plain (renderPinnedWorkingSetPromptBlock pinnedWorkingSet)⟩ ::
      ⟨.user, .plain (maintenanceRestoreBlock.getD (renderCompactedCapsulePromptBlock capsule))⟩ ::
        (recalled ++ tail)
  { messages := rewrittenMessages
    tailMessageCount := tail.length
    degradedTailMessageCount :=
      if JsNumber.lt (preferredTail preferredTailSize) (.ofNat 8) then some tail.length else none
    resultTokenEstimate := estimateContextTokens rewrittenMessages }

inductive CompactionError
  | blocked (reasonCodes : List RootSessionCompactionReasonCode)
  | capsuleRefused

/-- A compaction with what the model's summary says. Writing the capsule can fail. -/
def executeRootSessionCompaction (insertMemoryCapsule : MemoryCapsule → Bool)
    (messages : List Message) (requestGroupId : Option JsString)
    (summary : RootSessionStructuredSummary) :
    Except CompactionError RootSessionCompactionRewriteResult :=
  let workingSet := buildRootSessionPinnedWorkingSet
    (extractRootSessionDeterministicState messages requestGroupId)
  if workingSet.blockedReasonCodes ≠ [] then .error (.blocked workingSet.blockedReasonCodes)
  else if !hasBalancedToolUsePairs messages then .error (.blocked [.blockedByUnmatchedToolPair])
  else
    let capsule := compactionCapsule workingSet summary
    if insertMemoryCapsule capsule then
      .ok (rewriteRootSessionActiveWindow messages capsule workingSet none none none)
    else .error .capsuleRefused

end Nobie.Memory
