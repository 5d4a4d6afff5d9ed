/-
# Tool pairs under compaction

A conversation is in order when each tool use has one result behind it and each result one use in
front of it. The guard of the compaction counts the uses that no result has taken out: it lets a
list through whose results have no use. And the tail is cut by a count of messages, so that a
result can stay whose use is dropped.
-/

import Nobie.Memory.Compaction

namespace Nobie.Memory

open Foundation List JsString

/-! ## Conversations in order -/

def MessageContent.useId? : MessageContent → Option String
  | .toolUse id _ _ => some id
  | _ => none

def MessageContent.resultId? : MessageContent → Option String
  | .toolResult toolUseId _ => some toolUseId
  | _ => none

def useIds (blocks : List MessageContent) : List String := blocks.filterMap MessageContent.useId?

def resultIds (blocks : List MessageContent) : List String :=
  blocks.filterMap MessageContent.resultId?

/-- Behind each use there is exactly one result with its id, and in front of each result exactly
one use. -/
structure PairedBlocks (blocks : List MessageContent) : Prop where
  answered : ∀ before block after id, blocks = before ++ block :: after → block.useId? = some id →
    (resultIds after).count id = 1
  asked : ∀ before block after id, blocks = before ++ block :: after → block.resultId? = some id →
    (useIds before).count id = 1

def allBlocks (messages : List Message) : List MessageContent := messages.flatMap Message.blocks

def ValidConversation (messages : List Message) : Prop := PairedBlocks (allBlocks messages)

/-- No id is used or answered twice, and each result comes behind its use. -/
structure OwnIds (blocks : List MessageContent) : Prop where
  usedOnce : (useIds blocks).Nodup
  answeredOnce : (resultIds blocks).Nodup
  asked : ∀ before block after id, blocks = before ++ block :: after → block.resultId? = some id →
    id ∈ useIds before

/-! ## The guard -/

variable (messages : List Message) {block : MessageContent} {id : String}
  {blocks : List MessageContent}

theorem hasBalancedToolUsePairs_iff :
    hasBalancedToolUsePairs messages ↔ (allBlocks messages).foldl settleBlock [] = [] := by
  unfold hasBalancedToolUsePairs allBlocks
  rw [List.isEmpty_iff, foldl_flatMap]

theorem settleBlock_of_use (h : block.useId? = some id) (pending : List String) :
    settleBlock pending block = pending ++ [id] := by
  cases block with
  | toolUse useId name input =>
    cases h
    rfl
  | text | toolResult => exact absurd h (Option.some_ne_none id).symm

/-- The uses that wait have one result to come, and the blocks that come are in order behind
them. -/
structure Owed (pending : List String) (blocks : List MessageContent) : Prop where
  answered : ∀ before block after id, blocks = before ++ block :: after → block.useId? = some id →
    (resultIds after).count id = 1
  asked : ∀ before block after id, blocks = before ++ block :: after → block.resultId? = some id →
    (pending ++ useIds before).count id = 1
  owed : ∀ id ∈ pending, (resultIds blocks).count id = 1

theorem Owed.settle {pending : List String} {block : MessageContent} {rest : List MessageContent}
    (h : Owed pending (block :: rest)) : Owed (settleBlock pending block) rest := by
  have hanswered (before : List MessageContent) (other : MessageContent)
      (after : List MessageContent) (id : String) (hrest : rest = before ++ other :: after)
      (hid : other.useId? = some id) : (resultIds after).count id = 1 :=
    h.answered (block :: before) other after id (by rw [hrest, cons_append]) hid
  cases block with
  | text text =>
    refine ⟨hanswered, fun before other after id hrest hid => ?_, h.owed⟩
    exact h.asked (.text text :: before) other after id (by rw [hrest, cons_append]) hid
  | toolUse useId name input =>
    refine ⟨hanswered, fun before other after id hrest hid => ?_, fun id hid => ?_⟩
    · have hasked := h.asked (.toolUse useId name input :: before) other after id
        (by rw [hrest, cons_append]) hid
      change (pending ++ [useId] ++ useIds before).count id = 1
      rw [append_assoc]
      exact hasked
    · rcases mem_append.mp hid with hpending | hnew
      · exact h.owed id hpending
      · obtain rfl := mem_singleton.mp hnew
        exact h.answered [] _ rest id rfl rfl
  | toolResult toolUseId content =>
    have hwaits : pending.count toolUseId = 1 := by
      have hasked := h.asked [] _ rest toolUseId rfl rfl
      rwa [useIds, filterMap_nil, append_nil] at hasked
    have hlast : (resultIds rest).count toolUseId = 0 := by
      have howed := h.owed toolUseId (count_pos_iff.mp (by omega))
      have hcons : resultIds (.toolResult toolUseId content :: rest) =
          toolUseId :: resultIds rest := rfl
      rw [hcons, count_cons_self] at howed
      omega
    refine ⟨hanswered, fun before other after id hrest hid => ?_, fun id hid => ?_⟩
    · have hne : id ≠ toolUseId := by
        rintro rfl
        rw [count_eq_zero, hrest] at hlast
        exact hlast (mem_filterMap.mpr ⟨other, mem_append_right before mem_cons_self, hid⟩)
      have hasked := h.asked (.toolResult toolUseId content :: before) other after id
        (by rw [hrest, cons_append]) hid
      have hsame : useIds (.toolResult toolUseId content :: before) = useIds before := rfl
      rw [hsame, count_append] at hasked
      unfold settleBlock
      rw [count_append, count_erase_of_ne hne]
      exact hasked
    · have hne : id ≠ toolUseId := by
        rintro rfl
        have hgone := count_pos_iff.mpr hid
        unfold settleBlock at hgone
        rw [count_erase_self] at hgone
        omega
      have howed := h.owed id (mem_of_mem_erase hid)
      have hcons : resultIds (.toolResult toolUseId content :: rest) =
          toolUseId :: resultIds rest := rfl
      rwa [hcons, count_cons_of_ne hne.symm] at howed

variable {pending : List String} {A B : Type}

theorem Owed.foldl_eq_nil (h : Owed pending blocks) : blocks.foldl settleBlock pending = [] := by
  induction blocks generalizing pending with
  | nil =>
    refine eq_nil_iff_forall_not_mem.mpr fun id hid => ?_
    exact absurd (h.owed id hid) (by simp [resultIds])
  | cons block rest ih => exact ih h.settle

theorem PairedBlocks.owed (h : PairedBlocks blocks) : Owed [] blocks := ⟨h.answered, h.asked, nofun⟩

/-- The guard accepts a conversation in order. -/
theorem balanced_of_valid {messages : List Message} (h : ValidConversation messages) :
    hasBalancedToolUsePairs messages :=
  (hasBalancedToolUsePairs_iff messages).mpr h.owed.foldl_eq_nil

/-- A use that no result takes out waits to the end. -/
theorem mem_foldl_settleBlock (hid : id ∈ pending) (hnone : id ∉ resultIds blocks) :
    id ∈ blocks.foldl settleBlock pending := by
  induction blocks generalizing pending with
  | nil => exact hid
  | cons block rest ih =>
    cases block with
    | text text => exact ih hid hnone
    | toolUse useId name input => exact ih (mem_append_left _ hid) hnone
    | toolResult toolUseId content =>
      have hcons : resultIds (.toolResult toolUseId content :: rest) =
          toolUseId :: resultIds rest := rfl
      rw [hcons, mem_cons, not_or] at hnone
      exact ih ((mem_erase_of_ne hnone.1).mpr hid) hnone.2

/-! ## Order by the guard and the ids -/

variable {value : A → Option B} {items : List A}

/-- Values that never come again are without repetition. -/
theorem nodup_filterMap_of_splits
    (h : ∀ before item after key, items = before ++ item :: after → value item = some key →
      key ∉ after.filterMap value) : (items.filterMap value).Nodup := by
  induction items with
  | nil => exact nodup_nil
  | cons item rest ih =>
    have hrest := ih fun before other after key hsplit =>
      h (item :: before) other after key (by rw [hsplit, cons_append])
    cases hvalue : value item with
    | none => rwa [filterMap_cons_none hvalue]
    | some key =>
      rw [filterMap_cons_some hvalue]
      exact nodup_cons.mpr ⟨h [] item rest key rfl hvalue, hrest⟩

/-- Where a key is among the values, there is the item it comes from. -/
theorem exists_split_of_mem_filterMap {key : B} (h : key ∈ items.filterMap value) :
    ∃ before item after, items = before ++ item :: after ∧ value item = some key := by
  obtain ⟨item, hitem, hvalue⟩ := mem_filterMap.mp h
  obtain ⟨before, after, rfl⟩ := append_of_mem hitem
  exact ⟨before, item, after, rfl, hvalue⟩

theorem useIds_append (first second : List MessageContent) :
    useIds (first ++ second) = useIds first ++ useIds second := filterMap_append

theorem resultIds_append (first second : List MessageContent) :
    resultIds (first ++ second) = resultIds first ++ resultIds second := filterMap_append

theorem useIds_cons_of_use (h : block.useId? = some id) (rest : List MessageContent) :
    useIds (block :: rest) = id :: useIds rest :=
  filterMap_cons_some h

theorem resultIds_cons_of_result (h : block.resultId? = some id) (rest : List MessageContent) :
    resultIds (block :: rest) = id :: resultIds rest :=
  filterMap_cons_some h

theorem PairedBlocks.ownIds (h : PairedBlocks blocks) : OwnIds blocks where
  usedOnce := by
    refine nodup_filterMap_of_splits fun before first rest id hsplit hfirst hagain => ?_
    obtain ⟨between, second, after, rfl, hsecond⟩ := exists_split_of_mem_filterMap hagain
    have hanswered := h.answered (before ++ first :: between) second after id
      (by rw [hsplit, append_assoc, cons_append]) hsecond
    obtain ⟨middle, result, last, rfl, hresult⟩ := exists_split_of_mem_filterMap
      (count_pos_iff.mp (Nat.lt_of_lt_of_eq Nat.one_pos hanswered.symm))
    have hasked := h.asked (before ++ first :: (between ++ second :: middle)) result last id
      (by rw [hsplit, append_assoc, cons_append, append_assoc, cons_append])
      hresult
    rw [useIds_append, useIds_cons_of_use hfirst, useIds_append, useIds_cons_of_use hsecond,
      count_append, count_cons_self, count_append, count_cons_self] at hasked
    omega
  answeredOnce := by
    refine nodup_filterMap_of_splits fun before result after id hsplit hresult hagain => ?_
    have hasked := h.asked before result after id hsplit hresult
    obtain ⟨front, use, between, rfl, huse⟩ := exists_split_of_mem_filterMap
      (count_pos_iff.mp (Nat.lt_of_lt_of_eq Nat.one_pos hasked.symm))
    have hanswered := h.answered front use (between ++ result :: after) id
      (by rw [hsplit, append_assoc, cons_append]) huse
    rw [resultIds_append, resultIds_cons_of_result hresult, count_append,
      count_cons_self] at hanswered
    have hmore : 0 < (resultIds after).count id := count_pos_iff.mpr hagain
    omega
  asked := fun before result after id hsplit hresult =>
    count_pos_iff.mp (Nat.lt_of_lt_of_eq Nat.one_pos
      (h.asked before result after id hsplit hresult).symm)

/-- Where the guard accepts the blocks and no id stands twice or without its use, they are in
order. -/
theorem OwnIds.paired (h : OwnIds blocks) (hbalanced : blocks.foldl settleBlock [] = []) :
    PairedBlocks blocks where
  answered := by
    intro before use after id hsplit huse
    have hmem : id ∈ resultIds after := by
      by_contra hnone
      have hwaits : id ∈ blocks.foldl settleBlock [] := by
        rw [hsplit, foldl_append, foldl_cons, settleBlock_of_use huse]
        exact mem_foldl_settleBlock (mem_append_cons_self) hnone
      rw [hbalanced] at hwaits
      cases hwaits
    refine count_eq_one_of_mem ?_ hmem
    have hnodup := h.answeredOnce
    rw [hsplit, resultIds_append] at hnodup
    exact (List.Nodup.of_append_right hnodup).sublist ((sublist_cons_self use after).filterMap _)
  asked := by
    intro before result after id hsplit hresult
    refine count_eq_one_of_mem ?_ (h.asked before result after id hsplit hresult)
    have hnodup := h.usedOnce
    rw [hsplit, useIds_append] at hnodup
    exact List.Nodup.of_append_left hnodup

theorem valid_iff {messages : List Message} :
    ValidConversation messages ↔ hasBalancedToolUsePairs messages ∧ OwnIds (allBlocks messages) :=
  ⟨fun h => ⟨balanced_of_valid h, h.ownIds⟩, fun h =>
    h.2.paired ((hasBalancedToolUsePairs_iff messages).mp h.1)⟩

/-! ## The tail -/

/-- A result of the tail answers a use in front of it. -/
def CutsPair (front tail : List Message) : Prop :=
  ∃ id ∈ useIds (allBlocks front), id ∈ resultIds (allBlocks tail)

theorem paired_tail_iff {front tail : List MessageContent} (h : PairedBlocks (front ++ tail)) :
    PairedBlocks tail ↔ ∀ id ∈ useIds front, id ∉ resultIds tail := by
  have hasked (before : List MessageContent) (result : MessageContent)
      (after : List MessageContent) (id : String) (hsplit : tail = before ++ result :: after)
      (hresult : result.resultId? = some id) :
      (useIds front).count id + (useIds before).count id = 1 := by
    have hone := h.asked (front ++ before) result after id (by rw [hsplit, append_assoc]) hresult
    rwa [useIds_append, count_append] at hone
  refine ⟨fun htail id huse hanswered => ?_, fun hapart => ⟨fun before use after id hsplit =>
    h.answered (front ++ before) use after id (by rw [hsplit, append_assoc]),
    fun before result after id hsplit hresult => ?_⟩⟩
  · obtain ⟨before, result, after, hsplit, hresult⟩ := exists_split_of_mem_filterMap hanswered
    have hone := hasked before result after id hsplit hresult
    have hown := htail.asked before result after id hsplit hresult
    have hfront : 0 < (useIds front).count id := count_pos_iff.mpr huse
    omega
  · have hone := hasked before result after id hsplit hresult
    have hnone : (useIds front).count id = 0 := by
      refine count_eq_zero.mpr fun huse => hapart id huse ?_
      have hmem : result ∈ tail := by
        rw [hsplit]
        exact mem_append_right before mem_cons_self
      exact mem_filterMap.mpr ⟨result, hmem, hresult⟩
    omega

/-- Where the tail begins. -/
def droppedFront (messages : List Message) (preferredTailSize : Option JsNumber) : List Message :=
  messages.take (messages.length - tailSize (preferredTail preferredTailSize) messages.length)

theorem front_append_tail (preferredTailSize : Option JsNumber) :
    droppedFront messages preferredTailSize ++ keptTail messages preferredTailSize = messages :=
  take_append_drop _ messages

theorem allBlocks_append (first second : List Message) :
    allBlocks (first ++ second) = allBlocks first ++ allBlocks second := flatMap_append

/-- In front of the tail there are texts only. -/
theorem rewritten_messages (capsule : MemoryCapsule)
    (pinnedWorkingSet : RootSessionPinnedWorkingSet) (preferredTailSize : Option JsNumber)
    (maintenanceRestoreBlock promptTimeRecallBlock : Option JsString) :
    ∃ texts : List JsString,
      (rewriteRootSessionActiveWindow messages capsule pinnedWorkingSet preferredTailSize
        maintenanceRestoreBlock promptTimeRecallBlock).messages =
          texts.map (fun text => ⟨.user, .plain text⟩) ++ keptTail messages preferredTailSize := by
  refine ⟨renderPinnedWorkingSetPromptBlock pinnedWorkingSet ::
    maintenanceRestoreBlock.getD (renderCompactedCapsulePromptBlock capsule) ::
      (promptTimeRecallBlock.filter fun block => block ≠ []).toList, ?_⟩
  rw [map_cons, map_cons, cons_append, cons_append]
  rfl

theorem allBlocks_texts (texts : List JsString) :
    allBlocks (texts.map fun text => ⟨.user, .plain text⟩) = [] := by
  unfold allBlocks
  rw [flatMap_map]
  exact flatMap_eq_nil_iff.mpr fun _ _ => rfl

/-! ## What the compaction keeps -/

/-- A compaction of the messages gets through to the rewriting. -/
def ReachesRewriting (messages : List Message) : Prop :=
  ∃ insertMemoryCapsule requestGroupId summary result,
    executeRootSessionCompaction insertMemoryCapsule messages requestGroupId summary = .ok result

/-- No line of the messages forbids a compaction. -/
def Unblocked (messages : List Message) : Prop :=
  normalizeStringArray (valuesUnder .finalDeliveryBlock messages) = [] ∧
    normalizeStringArray (valuesUnder .recoveryState messages) = []

theorem blockedReasonCodes_eq_nil_iff (requestGroupId : Option JsString) :
    (buildRootSessionPinnedWorkingSet (extractRootSessionDeterministicState messages
      requestGroupId)).blockedReasonCodes = [] ↔ Unblocked messages := by
  unfold buildRootSessionPinnedWorkingSet extractRootSessionDeterministicState Unblocked
  split <;> split <;> simp_all

theorem execute_eq_ok {insertMemoryCapsule : MemoryCapsule → Bool} {messages : List Message}
    (hunblocked : Unblocked messages) (hbalanced : hasBalancedToolUsePairs messages)
    (requestGroupId : Option JsString) (summary : RootSessionStructuredSummary)
    (hinsert : insertMemoryCapsule (compactionCapsule (buildRootSessionPinnedWorkingSet
      (extractRootSessionDeterministicState messages requestGroupId)) summary)) :
    executeRootSessionCompaction insertMemoryCapsule messages requestGroupId summary =
      .ok (rewriteRootSessionActiveWindow messages
        (compactionCapsule (buildRootSessionPinnedWorkingSet
          (extractRootSessionDeterministicState messages requestGroupId)) summary)
        (buildRootSessionPinnedWorkingSet
          (extractRootSessionDeterministicState messages requestGroupId)) none none none) := by
  have hcodes := (blockedReasonCodes_eq_nil_iff messages requestGroupId).mpr hunblocked
  unfold executeRootSessionCompaction
  rw [if_neg (not_not.mpr hcodes), hbalanced, if_neg (by decide), if_pos hinsert]

theorem execute_of_ok {insertMemoryCapsule : MemoryCapsule → Bool} {messages : List Message}
    {requestGroupId : Option JsString} {summary : RootSessionStructuredSummary}
    {result : RootSessionCompactionRewriteResult} (h : executeRootSessionCompaction
      insertMemoryCapsule messages requestGroupId summary = .ok result) :
    Unblocked messages ∧ hasBalancedToolUsePairs messages ∧
      result = rewriteRootSessionActiveWindow messages
        (compactionCapsule (buildRootSessionPinnedWorkingSet
          (extractRootSessionDeterministicState messages requestGroupId)) summary)
        (buildRootSessionPinnedWorkingSet
          (extractRootSessionDeterministicState messages requestGroupId)) none none none := by
  unfold executeRootSessionCompaction at h
  dsimp only at h
  split at h
  · cases h
  · next hcodes =>
    split at h
    · cases h
    · next hbalanced =>
      split at h
      · rw [Bool.not_eq_true', Bool.not_eq_false] at hbalanced
        exact ⟨(blockedReasonCodes_eq_nil_iff messages requestGroupId).mp (not_not.mp hcodes),
          hbalanced, (Except.ok.inj h).symm⟩
      · cases h

theorem reachesRewriting_iff {messages : List Message} :
    ReachesRewriting messages ↔ Unblocked messages ∧ hasBalancedToolUsePairs messages := by
  refine ⟨?_, fun ⟨hunblocked, hbalanced⟩ => ?_⟩
  · rintro ⟨insertMemoryCapsule, requestGroupId, summary, result, hresult⟩
    obtain ⟨hunblocked, hbalanced, -⟩ := execute_of_ok hresult
    exact ⟨hunblocked, hbalanced⟩
  · exact ⟨fun _ => true, none, ⟨[], [], [], [], [], [], [], [], []⟩, _,
      execute_eq_ok hunblocked hbalanced none _ rfl⟩

/-- A conversation in order stays one and keeps its tail, and only such conversations get to the
rewriting. -/
structure CompactionKeepsPairs (messages : List Message) (preferredTailSize : Option JsNumber) :
    Prop where
  kept : ValidConversation messages → ∀ capsule pinnedWorkingSet maintenanceRestoreBlock
    promptTimeRecallBlock, ∃ result, rewriteRootSessionActiveWindow messages capsule
      pinnedWorkingSet preferredTailSize maintenanceRestoreBlock promptTimeRecallBlock = result ∧
        ValidConversation result.messages ∧ keptTail messages preferredTailSize <:+ messages ∧
          keptTail messages preferredTailSize <:+ result.messages ∧
            result.tailMessageCount = (keptTail messages preferredTailSize).length
  guarded : ReachesRewriting messages → ValidConversation messages

/-- The pairs are kept exactly where the lists that the guard lets through use and answer no id
twice and answer behind the use, and the cut of such a list leaves each result with its use. -/
theorem compactionKeepsPairs_iff (messages : List Message) (preferredTailSize : Option JsNumber) :
    CompactionKeepsPairs messages preferredTailSize ↔
      (hasBalancedToolUsePairs messages = true → Unblocked messages → OwnIds (allBlocks messages)) ∧
      (hasBalancedToolUsePairs messages = true → OwnIds (allBlocks messages) →
        ¬ CutsPair (droppedFront messages preferredTailSize)
          (keptTail messages preferredTailSize)) := by
  have hsplit : allBlocks messages = allBlocks (droppedFront messages preferredTailSize) ++
      allBlocks (keptTail messages preferredTailSize) := by
    rw [← allBlocks_append, front_append_tail]
  have hcut (hvalid : ValidConversation messages) :
      PairedBlocks (allBlocks (keptTail messages preferredTailSize)) ↔
        ¬ CutsPair (droppedFront messages preferredTailSize)
          (keptTail messages preferredTailSize) := by
    unfold ValidConversation at hvalid
    rw [hsplit] at hvalid
    rw [paired_tail_iff hvalid]
    unfold CutsPair
    push Not
    exact Iff.rfl
  have hrewritten (capsule : MemoryCapsule) (pinnedWorkingSet : RootSessionPinnedWorkingSet)
      (maintenanceRestoreBlock promptTimeRecallBlock : Option JsString) :
      ValidConversation (rewriteRootSessionActiveWindow messages capsule pinnedWorkingSet
        preferredTailSize maintenanceRestoreBlock promptTimeRecallBlock).messages ↔
        PairedBlocks (allBlocks (keptTail messages preferredTailSize)) := by
    obtain ⟨texts, htexts⟩ := rewritten_messages messages capsule pinnedWorkingSet
      preferredTailSize maintenanceRestoreBlock promptTimeRecallBlock
    unfold ValidConversation
    rw [htexts, allBlocks_append, allBlocks_texts, nil_append]
  refine ⟨fun h => ⟨fun hbalanced hunblocked => ?_, fun hbalanced hown => ?_⟩, fun h =>
    ⟨fun hvalid capsule pinnedWorkingSet maintenanceRestoreBlock promptTimeRecallBlock =>
      ⟨_, rfl, ?_, ?_, ?_, rfl⟩, fun hreached => ?_⟩⟩
  · exact (valid_iff.mp (h.guarded (reachesRewriting_iff.mpr ⟨hunblocked, hbalanced⟩))).2
  · have hvalid : ValidConversation messages := valid_iff.mpr ⟨hbalanced, hown⟩
    obtain ⟨result, rfl, hresult, -⟩ := h.kept hvalid ⟨[], [], [], [], [], [], [], []⟩
      ⟨[], [], [], [], [], [], []⟩ none none
    exact (hcut hvalid).mp ((hrewritten _ _ none none).mp hresult)
  · obtain ⟨hbalanced, hown⟩ := valid_iff.mp hvalid
    exact (hrewritten capsule pinnedWorkingSet maintenanceRestoreBlock
      promptTimeRecallBlock).mpr ((hcut hvalid).mpr (h.2 hbalanced hown))
  · exact drop_suffix _ messages
  · obtain ⟨texts, htexts⟩ := rewritten_messages messages capsule pinnedWorkingSet
      preferredTailSize maintenanceRestoreBlock promptTimeRecallBlock
    rw [htexts]
    exact suffix_append _ _
  · obtain ⟨hunblocked, hbalanced⟩ := reachesRewriting_iff.mp hreached
    exact valid_iff.mpr ⟨hbalanced, h.1 hbalanced hunblocked⟩

/-! ## A pair that is cut -/

/-- A tool is used and answered, and seven texts come behind. -/
def capturedScreen : List Message :=
  [⟨.assistant, .blocks [.toolUse "tool-1" "screen_capture" (ofString "{}")]⟩,
    ⟨.user, .blocks [.toolResult "tool-1" (ofString "ok")]⟩] ++
    List.replicate 7 ⟨.user, .plain (ofString "next")⟩

theorem capturedScreen_valid : ValidConversation capturedScreen := by
  refine valid_iff.mpr ⟨by decide, by decide, by decide, ?_⟩
  intro before block after id hsplit hresult
  match before with
  | [] =>
    obtain ⟨rfl, -⟩ := List.cons.inj hsplit
    exact absurd hresult (Option.some_ne_none id).symm
  | [use] =>
    obtain ⟨rfl, hrest⟩ := List.cons.inj hsplit
    obtain ⟨rfl, -⟩ := List.cons.inj hrest
    cases hresult
    exact mem_cons_self
  | first :: second :: rest =>
    obtain ⟨-, hrest⟩ := List.cons.inj hsplit
    obtain ⟨-, hnone⟩ := List.cons.inj hrest
    have hempty : [] = rest ++ block :: after := hnone
    exact absurd hempty.symm (append_ne_nil_of_right_ne_nil rest (cons_ne_nil _ _))

theorem keptTail_capturedScreen : keptTail capturedScreen none = capturedScreen.drop 1 := by
  decide +kernel

/-- The tail of eight begins with the result. -/
theorem capturedScreen_cutsPair : ValidConversation capturedScreen ∧
    ¬ ValidConversation (rewriteRootSessionActiveWindow capturedScreen
      ⟨[], [], [], [], [], [], [], []⟩ ⟨[], [], [], [], [], [], []⟩ none none none).messages := by
  refine ⟨capturedScreen_valid, fun h => ?_⟩
  obtain ⟨texts, htexts⟩ := rewritten_messages capturedScreen ⟨[], [], [], [], [], [], [], []⟩
    ⟨[], [], [], [], [], [], []⟩ none none none
  unfold ValidConversation at h
  rw [htexts, allBlocks_append, allBlocks_texts, nil_append, keptTail_capturedScreen] at h
  have hasked := h.asked [] (.toolResult "tool-1" (ofString "ok")) [] "tool-1" rfl rfl
  cases hasked

end Nobie.Memory
