/-
# Redaction of event payloads

What enters the ledger is cut and redacted first: secrets in texts are replaced by patterns,
members under keys that look like secrets are replaced whole, long texts and arrays are cut,
and what lies too deep is replaced by a note. The patterns are those of the source, matched
at every position from the left.
-/

import Nobie.Contracts.CanonicalIdentity
import Nobie.Orchestration.EventLedger

namespace Nobie.Orchestration

open Foundation JsString

/-! ## Matching -/

variable (unit : CodeUnit) (text : JsString)

/-- A lower case letter for an upper case one of the basic alphabet. -/
def lowerUnit : CodeUnit :=
  if 65 ≤ unit.val ∧ unit.val ≤ 90 then codeUnit (unit.val + 32) else unit

def isAsciiLetter : Bool := (65 ≤ unit.val && unit.val ≤ 90) || (97 ≤ unit.val && unit.val ≤ 122)

def isAsciiDigit : Bool := 48 ≤ unit.val && unit.val ≤ 57

/-- Is the unit one of the characters? -/
def isOneOf (characters : String) (unit : CodeUnit) : Bool := (ofString characters).contains unit

/-- `\w`. -/
def isWordUnit : Bool := isAsciiLetter unit || isAsciiDigit unit || isOneOf "_" unit

/-- The length of a word at the front of a text, whatever the case of its letters. -/
def wordLength (word : String) (text : JsString) : Option ℕ :=
  let units := ofString word
  if (text.take units.length).map lowerUnit = units then some units.length else none

/-- The length of two words at the front, with or without `_` or `-` between them. -/
def joinedLength (first second : String) (text : JsString) : Option ℕ :=
  (wordLength first text).bind fun start =>
    let rest := text.drop start
    let joint := if rest.head?.any (isOneOf "_-") then 1 else 0
    (wordLength second (rest.drop joint)).map fun length => start + joint + length

/-- What a pattern finds at the front of a text, given the unit before it: what stands in
its place and how many units it covers. -/
abbrev Pattern : Type := Option CodeUnit → JsString → Option (JsString × ℕ)

/-- `String.prototype.replace` with a global pattern, `skip` units being covered by the
last match still. -/
def replaceFrom (pattern : Pattern) : ℕ → Option CodeUnit → JsString → JsString
  | _, _, [] => []
  | skip + 1, _, unit :: rest => replaceFrom pattern skip (some unit) rest
  | 0, previous, unit :: rest =>
    match pattern previous (unit :: rest) with
    | none => unit :: replaceFrom pattern 0 (some unit) rest
    | some (replacement, length) => replacement ++ replaceFrom pattern (length - 1) (some unit) rest

def replaceAll (pattern : Pattern) (text : JsString) : JsString := replaceFrom pattern 0 none text

/-! ## Patterns of secrets -/

/-- `/Bearer\s+[A-Za-z0-9._~+/=-]+/gi`. -/
def bearerPattern : Pattern := fun _ text =>
  (wordLength "bearer" text).bind fun start =>
    let spaces := (text.drop start).takeWhile isSpace
    let token := (text.drop (start + spaces.length)).takeWhile fun unit =>
      isAsciiLetter unit || isAsciiDigit unit || isOneOf "._~+/=-" unit
    if spaces = [] ∨ token = [] then none
    else some (ofString "Bearer ***", start + spaces.length + token.length)

/-- `\b`: a word ends or begins between the two units. -/
def isBoundary (before after : Option CodeUnit) : Bool :=
  before.any isWordUnit != after.any isWordUnit

/-- `/\bsk-[A-Za-z0-9_-]{12,}\b/g`: of the run of characters as many as leave a boundary
behind them, at least twelve. -/
def secretKeyPattern : Pattern := fun previous text =>
  if isBoundary previous text.head? ∧ text.take 3 = ofString "sk-" then
    let rest := text.drop 3
    let run := rest.takeWhile fun unit =>
      isAsciiLetter unit || isAsciiDigit unit || isOneOf "_-" unit
    ((List.range (run.length + 1)).reverse.find? fun length =>
        12 ≤ length && isBoundary run[length - 1]? rest[length]?).map
      fun length => (ofString "sk-***", 3 + length)
  else none

/-- `api[_-]?key|authorization|password|refresh[_-]?token|secret|token`. -/
def secretNameLength : Option ℕ :=
  joinedLength "api" "key" text <|> wordLength "authorization" text <|>
    wordLength "password" text <|> joinedLength "refresh" "token" text <|>
    wordLength "secret" text <|> wordLength "token" text

/-- `["'\s:=]`. -/
def isSeparator : Bool := isOneOf "\"':=" unit || isSpace unit

/-- `[^"'\s,}]`. -/
def isSecretUnit : Bool :=
  !(unit.val = 34 || unit.val = 39 || unit.val = 44 || unit.val = 125 || isSpace unit)

/-- The name of a secret, separators and the secret itself, which is replaced. Separators
are given up from the last one while no secret follows. -/
def namedSecretPattern : Pattern := fun _ text =>
  (secretNameLength text).bind fun start =>
    let separators := ((text.drop start).takeWhile isSeparator).length
    ((List.range separators).reverse.map (· + 1)).findSome? fun length =>
      let secret := (text.drop (start + length)).takeWhile isSecretUnit
      if secret = [] then none
      else some (text.take (start + length) ++ ofString "***",
        start + length + secret.length)

/-- `TEXT_SECRET_PATTERNS`. -/
def textSecretPatterns : List Pattern := [bearerPattern, secretKeyPattern, namedSecretPattern]

/-- `SECRET_KEY_PATTERN` at the front of a text. -/
def secretKeyLength : Option ℕ :=
  joinedLength "api" "key" text <|> wordLength "authorization" text <|>
    wordLength "bearer" text <|> wordLength "cookie" text <|> wordLength "credential" text <|>
    wordLength "password" text <|> wordLength "private" text <|> wordLength "raw" text <|>
    joinedLength "refresh" "token" text <|> wordLength "secret" text <|> wordLength "token" text

/-- `SECRET_KEY_PATTERN.test`. -/
def isSecretKey (key : JsString) : Bool := key.tails.any fun rest => (secretKeyLength rest).isSome

/-! ## Sanitizing -/

def sanitizeText (value : JsString) : JsString :=
  let result := textSecretPatterns.foldl (fun result pattern => replaceAll pattern result) value
  if 4000 < result.length then result.take 3990 ++ ofString "..." else result

/-- `output[key] = value` on a plain object; nothing is kept under `__proto__`. -/
def assignValue (output : List (JsString × JsValue)) (member : JsString × JsValue) :
    List (JsString × JsValue) :=
  if member.1 = Contracts.protoKey then output
  else OrderedMap.insertEntry output member.1 member.2

/-- What stands for a value that lies too deep. -/
def truncatedNote : JsValue := .string (ofString "[truncated]")

mutual

def sanitizePayload : ℕ → JsValue → JsValue
  | _, .undefined => .undefined
  | _, .null => .null
  | depth, .bool value => if 8 < depth then truncatedNote else .bool value
  | depth, .number value => if 8 < depth then truncatedNote else .number value
  | depth, .string value => if 8 < depth then truncatedNote else .string (sanitizeText value)
  | depth, .array items =>
    if 8 < depth then truncatedNote else .array ((sanitizeItems (depth + 1) items).take 100)
  | depth, .object members =>
    if 8 < depth then truncatedNote
    else .object ((ownKeyOrder arrayIndex? (sanitizeMembers (depth + 1) members)).foldl
      assignValue [])

def sanitizeItems : ℕ → List JsValue → List JsValue
  | _, [] => []
  | depth, item :: rest => sanitizePayload depth item :: sanitizeItems depth rest

def sanitizeMembers : ℕ → List (JsString × JsValue) → List (JsString × JsValue)
  | _, [] => []
  | depth, (key, value) :: rest =>
    (key, if isSecretKey key then .string (ofString "[redacted]")
      else sanitizePayload depth value) :: sanitizeMembers depth rest

end

/-! ## Which events the ledger takes for duplicates

The dedupe key comes with the input or is made of the kind, four ids and a digest of summary and
redacted payload. The digest and the order of the host's language are parameters. -/

open JsonValue

/-! ## Inputs -/

structure OrchestrationEventInput where
  eventKind : OrchestrationEventKind
  (runId parentRunId requestGroupId subSessionId agentId teamId exchangeId : Option JsString)
  (approvalId correlationId dedupeKey source : Option JsString)
  severity : Option OrchestrationEventSeverity
  summary : JsString
  payload : Option PlainObject
  createdAt : Option JsNumber

def trimOrNull (value : Option JsString) : Option JsString :=
  (value.map trim).filter fun trimmed => trimmed ≠ []

variable (input : OrchestrationEventInput)

def correlationIdFor : JsString :=
  (trimOrNull input.correlationId <|> trimOrNull input.requestGroupId <|>
    trimOrNull input.runId <|> trimOrNull input.parentRunId <|>
    trimOrNull input.subSessionId <|> trimOrNull input.exchangeId <|>
    trimOrNull input.approvalId <|> trimOrNull input.agentId <|>
    trimOrNull input.teamId).getD (ofString input.eventKind.text)

/-- The issue codes. Kind and severity are what their types allow. -/
def validateOrchestrationEventInput : List String :=
  (if trim input.summary = [] then ["event_summary_missing"] else []) ++
    if trim (correlationIdFor input) = [] then ["event_correlation_missing"] else []

/-! ## Keys -/

mutual

/-- The value that `stableStringify` writes: `undefined` is written as null and left out as
a member. -/
def settle : JsValue → JsonValue
  | .undefined => .null
  | .null => .null
  | .bool value => .bool value
  | .number value => .number value
  | .string value => .string value
  | .array items => .array (settleItems items)
  | .object members => .object (settleMembers members)

def settleItems : List JsValue → List JsonValue
  | [] => []
  | item :: rest => settle item :: settleItems rest

def settleMembers : List (JsString × JsValue) → List (JsString × JsonValue)
  | [] => []
  | (_, .undefined) :: rest => settleMembers rest
  | (key, value) :: rest => (key, settle value) :: settleMembers rest

end

/-- What the host supplies: SHA-256 as the digits of its hexadecimal text, and whether
`localeCompare` puts a key before or with another. -/
structure LedgerHost where
  sha256 : List UInt8 → List (Fin 16)
  localeCompare : JsString → JsString → Bool

variable (host : LedgerHost)

/-- `Object.entries(value).sort`. -/
def LedgerHost.sortEntries (entries : List (JsString × JsonValue)) : List (JsString × JsonValue) :=
  (ownKeyOrder arrayIndex? entries).mergeSort fun first second =>
    host.localeCompare first.1 second.1

def stableStringify (value : JsValue) : String :=
  String.ofList (listing (arranged host.sortEntries (settle value)))

def hexUnit (digit : Fin 16) : CodeUnit :=
  if digit.val < 10 then codeUnit (48 + digit.val)
  else codeUnit (87 + digit.val)

def hashValue (value : JsValue) : JsString :=
  (host.sha256 (utf8Bytes (stableStringify host value))).map hexUnit

def colon : CodeUnit := codeUnit 58

/-- The ids in the key. -/
def keyIds : List JsString :=
  [correlationIdFor input, (trimOrNull input.subSessionId).getD [],
    (trimOrNull input.exchangeId).getD [], (trimOrNull input.approvalId).getD []]

/-- `{ summary, payload }` with the payload as it was sanitized. -/
def keyContent (payload : JsValue) : JsValue :=
  .object [(ofString "summary", .string input.summary), (ofString "payload", payload)]

def derivedKey (input : OrchestrationEventInput) (payload : JsValue) : JsString :=
  joinWith colon ([ofString "orchestration",
    ofString input.eventKind.text] ++ keyIds input ++ [hashValue host (keyContent input payload)])

def dedupeKeyFor (input : OrchestrationEventInput) (payload : JsValue) : JsString :=
  (trimOrNull input.dedupeKey).getD (derivedKey host input payload)

/-! ## Recording -/

def sanitizedPayload : JsValue :=
  sanitizePayload 0 (.object ((input.payload.map PlainObject.members).getD []))

/-- The key as its column holds it. -/
def dedupeColumn (input : OrchestrationEventInput) : JsString :=
  toWellFormed (dedupeKeyFor host input (sanitizedPayload input))

structure OrchestrationEventAppendResult where
  event : OrchestrationEvent
  inserted : Bool

/-- The row that is inserted. Its sequence number is given when it is. -/
def eventRow (now : JsNumber) (input : OrchestrationEventInput) : OrchestrationEvent where
  sequence := 0
  createdAt := input.createdAt.getD now
  eventKind := input.eventKind
  runId := (trimOrNull input.runId).map toWellFormed
  parentRunId := (trimOrNull input.parentRunId).map toWellFormed
  requestGroupId := (trimOrNull input.requestGroupId).map toWellFormed
  subSessionId := (trimOrNull input.subSessionId).map toWellFormed
  agentId := (trimOrNull input.agentId).map toWellFormed
  teamId := (trimOrNull input.teamId).map toWellFormed
  exchangeId := (trimOrNull input.exchangeId).map toWellFormed
  approvalId := (trimOrNull input.approvalId).map toWellFormed
  correlationId := toWellFormed (correlationIdFor input)
  dedupeKey := some (dedupeColumn host input)
  source := toWellFormed ((trimOrNull input.source).getD (ofString "runtime"))
  severity := input.severity.getD .info
  summary := toWellFormed (sanitizeText input.summary)
  payload := sanitizedPayload input

/-- An input that does not validate is answered with null. -/
def recordOrchestrationEvent (ledger : EventLedger) (now : JsNumber)
    (input : OrchestrationEventInput) : Option OrchestrationEventAppendResult × EventLedger :=
  if validateOrchestrationEventInput input ≠ [] then (none, ledger)
  else
    match ledger.events.find? fun event => event.dedupeKey = some (dedupeColumn host input) with
    | some duplicate => (some { event := duplicate, inserted := false }, ledger)
    | none =>
      let event := { eventRow host now input with sequence := ledger.lastSequence + 1 }
      (some { event, inserted := true }, ledger.add event)

/-- A sequence of inputs, each with the reading of the clock it meets. -/
def recordAll (ledger : EventLedger) (inputs : List (JsNumber × OrchestrationEventInput)) :
    EventLedger :=
  inputs.foldl (fun ledger input => (recordOrchestrationEvent host ledger input.1 input.2).2) ledger

/-! ## No event is lost but to a key

Colons in the ids, collisions of the digest, and keys that spell what another input's key is made of
stay possible. -/

open List

/-! ## What was sanitized -/

theorem settle_array (items : List JsValue) :
    settle (.array items) = .array (items.map settle) := by
  have hitems : settleItems items = items.map settle := by
    induction items with
    | nil => rfl
    | cons item rest ih => rw [settleItems, ih, map_cons]
  rw [settle, hitems]

variable (value : JsValue) {depth : ℕ} {member : JsString × JsValue}
  {output : List (JsString × JsValue)} (host : LedgerHost) {key : Option JsString}

theorem settleMembers_cons (key : JsString) (value : JsValue) (rest : List (JsString × JsValue)) :
    settleMembers ((key, value) :: rest) = settleMembers rest ∨
      settleMembers ((key, value) :: rest) = (key, settle value) :: settleMembers rest := by
  cases value with
  | undefined => exact .inl (by rw [settleMembers])
  | null | bool | number | string | array | object => exact .inr (by rw [settleMembers]; simp)

variable {members : List (JsString × JsValue)} {first second : OrchestrationEventInput}

theorem mem_settleMembers {key : JsString} {value : JsonValue}
    (hmem : (key, value) ∈ settleMembers members) :
    ∃ settled, (key, settled) ∈ members ∧ settle settled = value := by
  induction members with
  | nil => rw [settleMembers] at hmem; cases hmem
  | cons member rest ih =>
    obtain ⟨first, settled⟩ := member
    have hrest (hmem : (key, value) ∈ settleMembers rest) :
        ∃ settled', (key, settled') ∈ (first, settled) :: rest ∧ settle settled' = value := by
      obtain ⟨settled', hsettled, hvalue⟩ := ih hmem
      exact ⟨settled', mem_cons_of_mem _ hsettled, hvalue⟩
    obtain hleft | hkept := settleMembers_cons first settled rest
    · exact hrest (hleft ▸ hmem)
    · rw [hkept] at hmem
      obtain hhead | htail := mem_cons.mp hmem
      · cases hhead
        exact ⟨settled, mem_cons_self, rfl⟩
      · exact hrest htail

theorem keys_settleMembers_sublist (members : List (JsString × JsValue)) :
    ((settleMembers members).map Prod.fst).Sublist (members.map Prod.fst) := by
  induction members with
  | nil => rw [settleMembers]; exact .slnil
  | cons member rest ih =>
    obtain ⟨key, value⟩ := member
    obtain hleft | hkept := settleMembers_cons key value rest
    · rw [hleft]
      exact ih.cons _
    · rw [hkept]
      exact ih.cons_cons _

/-- A proper value settles to one whose keys are distinct at every depth. -/
theorem settle_proper {value : JsValue} (hproper : value.proper) :
    SameUpToKeyOrder (settle value) (settle value) := by
  induction value using JsValue.inductionOn with
  | undefined | null => rw [settle]; exact .null
  | bool value => rw [settle]; exact .bool value
  | number value => rw [settle]; exact .number value
  | string value => rw [settle]; exact .string value
  | array items ih =>
    rw [JsValue.proper_array] at hproper
    rw [settle_array]
    refine .array rfl fun index item other hitem hother => ?_
    cases hitem.symm.trans hother
    obtain ⟨settled, hsettled, rfl⟩ := mem_map.mp (mem_of_getElem? hitem)
    exact ih settled hsettled (hproper settled hsettled)
  | object members ih =>
    rw [JsValue.proper_object] at hproper
    obtain ⟨hdistinct, hvalues⟩ := hproper
    have hkeys := hdistinct.sublist (keys_settleMembers_sublist members)
    rw [settle]
    refine .object hkeys .rfl fun key value other hvalue hother => ?_
    obtain rfl : value = other := congrArg Prod.snd (inj_on_of_nodup_map hkeys hvalue hother rfl)
    obtain ⟨settled, hsettled, rfl⟩ := mem_settleMembers hvalue
    exact ih _ hsettled (hvalues _ hsettled)

theorem mem_sanitizeItems {items : List JsValue} {item : JsValue}
    (hmem : item ∈ sanitizeItems depth items) :
    ∃ raw ∈ items, sanitizePayload depth raw = item := by
  induction items with
  | nil => rw [sanitizeItems] at hmem; cases hmem
  | cons first rest ih =>
    rw [sanitizeItems] at hmem
    obtain rfl | htail := mem_cons.mp hmem
    · exact ⟨first, mem_cons_self, rfl⟩
    · obtain ⟨raw, hraw, hitem⟩ := ih htail
      exact ⟨raw, mem_cons_of_mem _ hraw, hitem⟩

theorem mem_sanitizeMembers (hmem : member ∈ sanitizeMembers depth members) :
    member.2 = .string (ofString "[redacted]") ∨
      ∃ raw ∈ members, sanitizePayload depth raw.2 = member.2 := by
  induction members with
  | nil => rw [sanitizeMembers] at hmem; cases hmem
  | cons first rest ih =>
    obtain ⟨key, value⟩ := first
    rw [sanitizeMembers] at hmem
    obtain rfl | htail := mem_cons.mp hmem
    · dsimp only
      split_ifs with hsecret
      · exact .inl rfl
      · exact .inr ⟨_, mem_cons_self, rfl⟩
    · obtain hredacted | ⟨raw, hraw, hmember⟩ := ih htail
      · exact .inl hredacted
      · exact .inr ⟨raw, mem_cons_of_mem _ hraw, hmember⟩

theorem nodup_foldl_assignValue (houtput : (output.map Prod.fst).Nodup) :
    ((members.foldl assignValue output).map Prod.fst).Nodup := by
  induction members generalizing output with
  | nil => exact houtput
  | cons member rest ih =>
    refine ih ?_
    unfold assignValue
    split_ifs
    · exact houtput
    · exact OrderedMap.nodup_insertEntry houtput _ _

theorem mem_foldl_assignValue (hmem : member ∈ members.foldl assignValue output) :
    member ∈ output ∨ member ∈ members := by
  induction members generalizing output with
  | nil => exact .inl hmem
  | cons first rest ih =>
    obtain hassigned | hrest := ih hmem
    · unfold assignValue at hassigned
      split_ifs at hassigned
      · exact .inl hassigned
      · obtain hnew | hold := OrderedMap.mem_of_mem_insertEntry hassigned
        · exact .inr (hnew ▸ mem_cons_self)
        · exact .inl hold
    · exact .inr (mem_cons_of_mem _ hrest)

/-- What is sanitized has every key once, whatever it was. -/
theorem sanitizePayload_proper (depth : ℕ) (value : JsValue) :
    (sanitizePayload depth value).proper := by
  have hnote : truncatedNote.proper := by rw [truncatedNote, JsValue.proper]
  induction value using JsValue.inductionOn generalizing depth with
  | undefined | null => rw [sanitizePayload, JsValue.proper]
  | bool | number | string => rw [sanitizePayload]; split_ifs <;> [exact hnote; rw [JsValue.proper]]
  | array items ih =>
    rw [sanitizePayload]
    split_ifs
    · exact hnote
    · refine JsValue.proper_array.mpr fun item hitem => ?_
      obtain ⟨raw, hraw, rfl⟩ := mem_sanitizeItems (mem_of_mem_take hitem)
      exact ih raw hraw (depth + 1)
  | object members ih =>
    rw [sanitizePayload]
    split_ifs
    · exact hnote
    · refine JsValue.proper_object.mpr ⟨nodup_foldl_assignValue .nil, fun member hmember => ?_⟩
      obtain hnone | hassigned := mem_foldl_assignValue hmember
      · cases hnone
      obtain hredacted | ⟨raw, hraw, hvalue⟩ :=
        mem_sanitizeMembers ((ownKeyOrder_perm _ _).subset hassigned)
      · rw [hredacted, JsValue.proper]
      · rw [← hvalue]
        exact ih raw hraw (depth + 1)

/-! ## What a derived key tells -/

/-- Different contents with one digest. -/
def DigestsCollide (host : LedgerHost) (first second : JsValue) : Prop :=
  stableStringify host first ≠ stableStringify host second ∧
    host.sha256 (utf8Bytes (stableStringify host first)) =
      host.sha256 (utf8Bytes (stableStringify host second))

variable (input : OrchestrationEventInput)

/-- The content of an input's key. -/
def contentOf : JsValue := keyContent input (sanitizedPayload input)

/-- What inputs without a key of their own share when their keys are equal. Ids are compared
as their columns hold them. -/
structure AgreeInKey (host : LedgerHost) (first second : OrchestrationEventInput) : Prop where
  eventKind : first.eventKind = second.eventKind
  ids : (∀ id ∈ keyIds first ++ keyIds second, colon ∉ id) →
    (keyIds first).map toWellFormed = (keyIds second).map toWellFormed
  content : (first.summary = second.summary ∧
      SameUpToKeyOrder (settle (sanitizedPayload first)) (settle (sanitizedPayload second))) ∨
    DigestsCollide host (contentOf first) (contentOf second)

/-- The key that is made for an input. -/
def madeKey (host : LedgerHost) (input : OrchestrationEventInput) : JsString :=
  toWellFormed (derivedKey host input (sanitizedPayload input))

/-- What the keys of two inputs share when they are equal: the texts they came with, or what
the keys are made of, or one came with the text that the other's key is made to be. -/
def ShareKey (host : LedgerHost) (first second : OrchestrationEventInput) : Prop :=
  match trimOrNull first.dedupeKey, trimOrNull second.dedupeKey with
  | some key, some other => toWellFormed key = toWellFormed other
  | none, none => AgreeInKey host first second
  | some key, none => toWellFormed key = madeKey host second
  | none, some other => madeKey host first = toWellFormed other

theorem sortEntries_perm (entries : List (JsString × JsonValue)) :
    (host.sortEntries entries).Perm entries :=
  (mergeSort_perm _ _).trans (ownKeyOrder_perm _ _)

/-- Proper values with one text are the same up to the order of keys. -/
theorem same_of_stableStringify {host : LedgerHost} {first second : JsValue}
    (hfirst : first.proper) (hsecond : second.proper)
    (hsame : stableStringify host first = stableStringify host second) :
    SameUpToKeyOrder (settle first) (settle second) := by
  have hlistings := listing_injective (String.ofList_injective hsame)
  have hkept := arranged_same (sortEntries_perm host) (settle_proper hfirst)
  rw [hlistings] at hkept
  exact hkept.symm.trans (arranged_same (sortEntries_perm host) (settle_proper hsecond))

theorem contentOf_proper : (contentOf input).proper := by
  have hkeys : [ofString "summary", ofString "payload"].Nodup := by decide +kernel
  refine JsValue.proper_object.mpr ⟨hkeys, ?_⟩
  refine forall_mem_cons.mpr ⟨by rw [JsValue.proper], forall_mem_singleton.mpr ?_⟩
  exact sanitizePayload_proper 0 _

/-- Contents that are the same have the same summary and the same payload. -/
theorem same_of_contentOf
    (hsame : SameUpToKeyOrder (settle (contentOf first)) (settle (contentOf second))) :
    first.summary = second.summary ∧
      SameUpToKeyOrder (settle (sanitizedPayload first)) (settle (sanitizedPayload second)) := by
  have hsettled (input : OrchestrationEventInput) : settle (contentOf input) =
      .object [(ofString "summary", .string input.summary),
        (ofString "payload", settle (sanitizedPayload input))] := by
    unfold contentOf keyContent sanitizedPayload
    rw [sanitizePayload, if_neg (by decide)]
    simp only [settle, settleMembers]
  rw [hsettled, hsettled] at hsame
  cases hsame with
  | object _ _ hvalues =>
    constructor
    · have hsummary := hvalues (ofString "summary") _ _ mem_cons_self
        mem_cons_self
      generalize first.summary = summary at hsummary ⊢
      cases hsummary
      rfl
    · exact hvalues (ofString "payload") _ _ (by simp) (by simp)

/-! ## Keys that are made -/

theorem kindText_plain (kind : OrchestrationEventKind) :
    ∀ unit ∈ ofString kind.text, isPlain unit ∧ unit ≠ colon := by
  have hchars : (kind.text.toList.all fun c => c.toNat < 0xD800 ∧ c.toNat ≠ 58) := by
    cases kind <;> decide +kernel
  simp only [all_eq_true, decide_eq_true_eq] at hchars
  intro unit hunit
  obtain ⟨c, hc, hval⟩ := exists_char_of_mem_ofString (fun c hc => (hchars c hc).1) hunit
  obtain ⟨hbound, hcolon⟩ := hchars c hc
  exact ⟨isPlain_of_lt (hval ▸ hbound), fun hsame => hcolon (by rw [← hval, hsame]; rfl)⟩

theorem kindText_injective {kind other : OrchestrationEventKind}
    (hsame : ofString kind.text = ofString other.text) : kind = other := by
  have hdistinct : (orchestrationEventKinds.map fun kind =>
      ofString kind.text).Nodup := by decide +kernel
  exact inj_on_of_nodup_map hdistinct
    (mem_orchestrationEventKinds kind) (mem_orchestrationEventKinds other) hsame

theorem hexUnit_plain (digit : Fin 16) : isPlain (hexUnit digit) ∧ hexUnit digit ≠ colon := by
  revert digit
  decide

theorem hexUnit_injective : Function.Injective hexUnit := by
  intro first second
  revert first second
  decide

theorem hashValue_plain (value : JsValue) :
    ∀ unit ∈ hashValue host value, isPlain unit ∧ unit ≠ colon := by
  intro unit hunit
  obtain ⟨digit, -, rfl⟩ := mem_map.mp hunit
  exact hexUnit_plain digit

/-- The parts of a made key, each well-formed. -/
theorem madeKey_eq :
    madeKey host input = ofString "orchestration" ++ colon ::
      (ofString input.eventKind.text ++ colon ::
        (joinWith colon ((keyIds input).map toWellFormed) ++ colon ::
          hashValue host (contentOf input))) := by
  have hplain (text : JsString) (htext : ∀ unit ∈ text, isPlain unit ∧ unit ≠ colon) :
      toWellFormed text = text :=
    toWellFormed_of_plain fun unit hunit => (htext unit hunit).1
  have hfront : toWellFormed (ofString "orchestration") = ofString "orchestration" := by
    refine toWellFormed_of_plain fun unit hunit => ?_
    have hchars : ("orchestration".toList.all fun c => c.toNat < 0xD800) := by decide
    simp only [all_eq_true, decide_eq_true_eq] at hchars
    obtain ⟨c, hc, hval⟩ := exists_char_of_mem_ofString hchars hunit
    exact isPlain_of_lt (hval ▸ hchars c hc)
  have hids : (keyIds input).map toWellFormed ≠ [] := cons_ne_nil _ _
  rw [madeKey, derivedKey, toWellFormed_joinWith (by decide), map_append,
    map_append, map_singleton, hplain _ (hashValue_plain host _),
    ← joinWith_append_singleton hids, map_cons, map_singleton, hfront,
    hplain _ (kindText_plain _)]
  rfl

/-- Inputs with the same made key agree in what it is made of. -/
theorem agreeInKey_of_madeKey {host : LedgerHost} (hsame : madeKey host first = madeKey host second)
    : AgreeInKey host first second := by
  have hkind (input : OrchestrationEventInput) : colon ∉ ofString input.eventKind.text :=
    fun hmem => (kindText_plain _ _ hmem).2 rfl
  have hhash (input : OrchestrationEventInput) : colon ∉ hashValue host (contentOf input) :=
    fun hmem => (hashValue_plain host _ _ hmem).2 rfl
  rw [madeKey_eq, madeKey_eq] at hsame
  have hparts := (List.cons.inj (append_cancel_left hsame)).2
  obtain ⟨hkinds, hrest⟩ := append_cons_cancel (hkind first) (hkind second) hparts
  obtain ⟨hids, hhashes⟩ := append_cons_cancel_right (hhash first) (hhash second) hrest
  refine ⟨kindText_injective hkinds, fun hcolon => ?_, ?_⟩
  · have hfree {ids : List JsString} (hids : ∀ id ∈ ids, colon ∉ id) :
        ∀ id ∈ ids.map toWellFormed, colon ∉ id := by
      intro id hid hmem
      obtain ⟨raw, hraw, rfl⟩ := mem_map.mp hid
      exact hids raw hraw (mem_of_mem_toWellFormed (by decide) hmem)
    obtain ⟨hfirst, hsecond⟩ := forall_mem_append.mp hcolon
    exact eq_of_joinWith_eq rfl (hfree hfirst) (hfree hsecond) hids
  · have hdigests := hexUnit_injective.list_map hhashes
    by_cases htexts : stableStringify host (contentOf first) = stableStringify host (contentOf second)
    · exact .inl (same_of_contentOf
        (same_of_stableStringify (contentOf_proper first) (contentOf_proper second) htexts))
    · exact .inr ⟨htexts, hdigests⟩

/-- Equal keys share what they are made of. -/
theorem shareKey_of_dedupeColumn {host : LedgerHost}
    (hsame : dedupeColumn host first = dedupeColumn host second) : ShareKey host first second := by
  unfold dedupeColumn dedupeKeyFor at hsame
  unfold ShareKey
  cases hfirst : trimOrNull first.dedupeKey <;> cases hsecond : trimOrNull second.dedupeKey <;>
    simp only [hfirst, hsecond, Option.getD_none, Option.getD_some] at hsame ⊢
  · exact agreeInKey_of_madeKey hsame
  · exact hsame
  · exact hsame
  · exact hsame

/-! ## What is stored and what is dropped -/

/-- The input was stored as an event of its own. -/
def WasStored (answer : Option OrchestrationEventAppendResult) : Prop :=
  ∃ result, answer = some result ∧ result.inserted

/-- The input was answered with an event that was there. -/
def WasDropped (answer : Option OrchestrationEventAppendResult) : Prop :=
  ∃ result, answer = some result ∧ result.inserted = false

def EventLedger.dedupeKeys (ledger : EventLedger) : List (Option JsString) :=
  ledger.events.map OrchestrationEvent.dedupeKey

section Recording

variable {host : LedgerHost} {ledger : EventLedger} {now : JsNumber}
  {input : OrchestrationEventInput}

theorem record_of_invalid (hinvalid : validateOrchestrationEventInput input ≠ []) :
    recordOrchestrationEvent host ledger now input = (none, ledger) := by
  rw [recordOrchestrationEvent, if_pos hinvalid]

/-- A valid input whose key is there is answered with the event that has it. -/
theorem record_of_mem (hvalid : validateOrchestrationEventInput input = [])
    (hmem : some (dedupeColumn host input) ∈ ledger.dedupeKeys) :
    ∃ event, recordOrchestrationEvent host ledger now input =
      (some { event, inserted := false }, ledger) := by
  obtain ⟨event, hevent, hkey⟩ := mem_map.mp hmem
  have hsome : (ledger.events.find? fun event =>
      event.dedupeKey = some (dedupeColumn host input)).isSome :=
    find?_isSome.mpr ⟨event, hevent, decide_eq_true hkey⟩
  obtain ⟨duplicate, hfound⟩ := Option.isSome_iff_exists.mp hsome
  exact ⟨duplicate, by rw [recordOrchestrationEvent, if_neg (not_not_intro hvalid), hfound]⟩

/-- A valid input with a new key is stored under it. -/
theorem record_of_not_mem (hvalid : validateOrchestrationEventInput input = [])
    (hmem : some (dedupeColumn host input) ∉ ledger.dedupeKeys) :
    WasStored (recordOrchestrationEvent host ledger now input).1 ∧
      (recordOrchestrationEvent host ledger now input).2.dedupeKeys =
        ledger.dedupeKeys ++ [some (dedupeColumn host input)] := by
  have hnone : (ledger.events.find? fun event =>
      event.dedupeKey = some (dedupeColumn host input)) = none :=
    find?_eq_none.mpr fun event hevent hkey =>
      hmem (mem_map.mpr ⟨event, hevent, of_decide_eq_true hkey⟩)
  rw [recordOrchestrationEvent, if_neg (not_not_intro hvalid), hnone]
  exact ⟨⟨_, rfl, rfl⟩, map_append⟩

theorem wasDropped_iff : WasDropped (recordOrchestrationEvent host ledger now input).1 ↔
    validateOrchestrationEventInput input = [] ∧
      some (dedupeColumn host input) ∈ ledger.dedupeKeys := by
  constructor
  · rintro ⟨result, hanswer, hinserted⟩
    by_cases hvalid : validateOrchestrationEventInput input = []
    · refine ⟨hvalid, by_contra fun hmem => ?_⟩
      obtain ⟨stored, hstored, htrue⟩ := (@record_of_not_mem host ledger now input hvalid hmem).1
      cases hanswer.symm.trans hstored
      rw [hinserted] at htrue
      cases htrue
    · rw [record_of_invalid hvalid] at hanswer
      cases hanswer
  · rintro ⟨hvalid, hmem⟩
    obtain ⟨event, hrecord⟩ := @record_of_mem host ledger now input hvalid hmem
    exact ⟨_, congrArg Prod.fst hrecord, rfl⟩

/-- The keys that are there after an input: those before, and its own if it is stored. -/
theorem mem_dedupeKeys_record :
    key ∈ (recordOrchestrationEvent host ledger now input).2.dedupeKeys ↔ key ∈ ledger.dedupeKeys ∨
        WasStored (recordOrchestrationEvent host ledger now input).1 ∧
          some (dedupeColumn host input) = key := by
  by_cases hvalid : validateOrchestrationEventInput input = []
  · by_cases hmem : some (dedupeColumn host input) ∈ ledger.dedupeKeys
    · obtain ⟨event, hrecord⟩ := @record_of_mem host ledger now input hvalid hmem
      rw [hrecord]
      refine ⟨.inl, fun h => h.elim id ?_⟩
      rintro ⟨⟨result, hresult, hinserted⟩, -⟩
      cases hresult
      cases hinserted
    · obtain ⟨hstored, hkeys⟩ := @record_of_not_mem host ledger now input hvalid hmem
      rw [hkeys, mem_append, mem_singleton]
      exact or_congr_right ⟨fun hkey => ⟨hstored, hkey.symm⟩, fun h => h.2.symm⟩
  · rw [record_of_invalid hvalid]
    refine ⟨.inl, fun h => h.elim id ?_⟩
    rintro ⟨⟨result, hresult, -⟩, -⟩
    cases hresult

end Recording

/-- Some input of the sequence is stored when its turn comes, and meets the condition. -/
def StoredBefore (host : LedgerHost) (inputs : List (JsNumber × OrchestrationEventInput))
    (meets : OrchestrationEventInput → Prop) : Prop :=
  ∃ before prior after, inputs = before ++ prior :: after ∧
    WasStored (recordOrchestrationEvent host (recordAll host .empty before) prior.1 prior.2).1 ∧
      meets prior.2

/-- The keys in the ledger are those of the inputs that were stored. -/
theorem mem_dedupeKeys_recordAll {host : LedgerHost}
    {inputs : List (JsNumber × OrchestrationEventInput)} :
    key ∈ (recordAll host .empty inputs).dedupeKeys ↔
      StoredBefore host inputs fun prior => some (dedupeColumn host prior) = key := by
  induction inputs using List.reverseRecOn with
  | nil =>
    constructor
    · intro hmem
      cases hmem
    · rintro ⟨before, prior, after, hsplit, -⟩
      exact absurd hsplit.symm (by simp)
  | append_singleton inputs input ih =>
    have hlast : recordAll host .empty (inputs ++ [input]) =
        (recordOrchestrationEvent host (recordAll host .empty inputs) input.1 input.2).2 :=
      foldl_append
    rw [hlast, mem_dedupeKeys_record, ih]
    constructor
    · rintro (⟨before, prior, after, rfl, hprior⟩ | hstored)
      · exact ⟨before, prior, after ++ [input], by simp, hprior⟩
      · exact ⟨inputs, input, [], rfl, hstored⟩
    · rintro ⟨before, prior, after, hsplit, hprior⟩
      induction after using List.reverseRecOn with
      | nil =>
        obtain ⟨rfl, hinput⟩ := append_inj' hsplit rfl
        obtain rfl := singleton_inj.mp hinput
        exact .inr hprior
      | append_singleton after final _ =>
        rw [← cons_append, ← append_assoc] at hsplit
        exact .inl ⟨before, prior, after, (append_inj' hsplit rfl).1, hprior⟩

/-! ## The ledger keeps every event but duplicates -/

/-- What is kept of a sequence of inputs: an input is dropped exactly when it is valid and
one with the key of it was stored before, and inputs with one key share what it is made of. -/
structure KeepsAllButDuplicates (host : LedgerHost) : Prop where
  dropped_iff : ∀ inputs now input,
    WasDropped (recordOrchestrationEvent host (recordAll host .empty inputs) now input).1 ↔
      validateOrchestrationEventInput input = [] ∧
        StoredBefore host inputs fun prior => dedupeColumn host prior = dedupeColumn host input
  shared : ∀ first second, dedupeColumn host first = dedupeColumn host second →
    ShareKey host first second

theorem keepsAllButDuplicates (host : LedgerHost) : KeepsAllButDuplicates host where
  dropped_iff inputs now input := by
    rw [wasDropped_iff, mem_dedupeKeys_recordAll]
    simp only [StoredBefore, Option.some.injEq]
  shared first second hsame := shareKey_of_dedupeColumn hsame

/-- The inputs agree in every part of an event that is listed. -/
structure AgreeThroughout (first second : OrchestrationEventInput) : Prop where
  eventKind : first.eventKind = second.eventKind
  runId : first.runId = second.runId
  parentRunId : first.parentRunId = second.parentRunId
  requestGroupId : first.requestGroupId = second.requestGroupId
  subSessionId : first.subSessionId = second.subSessionId
  agentId : first.agentId = second.agentId
  teamId : first.teamId = second.teamId
  exchangeId : first.exchangeId = second.exchangeId
  approvalId : first.approvalId = second.approvalId
  correlationId : first.correlationId = second.correlationId
  source : first.source = second.source
  summary : first.summary = second.summary
  payload : first.payload = second.payload

/-- A valid input is dropped only for a stored one with its explicit key, or, both without
one, for one that agrees with it throughout. -/
def LosesNoEvent (host : LedgerHost) : Prop :=
  ∀ inputs now input,
    WasDropped (recordOrchestrationEvent host (recordAll host .empty inputs) now input).1 →
      StoredBefore host inputs fun prior =>
        (∃ key, trimOrNull prior.dedupeKey = some key ∧ trimOrNull input.dedupeKey = some key) ∨
          trimOrNull prior.dedupeKey = none ∧ trimOrNull input.dedupeKey = none ∧
            AgreeThroughout prior input

/-- An input about an agent, `x` being its summary and `r` its run. -/
def registeredAgent (agentId : JsString) : OrchestrationEventInput where
  eventKind := .agentRegistered
  runId := some (ofString "r")
  parentRunId := none
  requestGroupId := none
  subSessionId := none
  agentId := some agentId
  teamId := none
  exchangeId := none
  approvalId := none
  correlationId := none
  dedupeKey := none
  source := none
  severity := none
  summary := ofString "x"
  payload := none
  createdAt := none

/-- Two agents are registered in one run, the second is lost. -/
theorem secondAgent_lost : ¬ ∃ host, LosesNoEvent host := by
  rintro ⟨host, hloses⟩
  have hvalid (agentId : JsString) :
      validateOrchestrationEventInput (registeredAgent agentId) = [] := rfl
  have hdropped : WasDropped (recordOrchestrationEvent host
      (recordAll host .empty [(.nan, registeredAgent (ofString "a"))]) .nan
        (registeredAgent (ofString "b"))).1 := by
    refine wasDropped_iff.mpr ⟨hvalid _, mem_dedupeKeys_recordAll.mpr ?_⟩
    refine ⟨[], _, [], rfl, (record_of_not_mem (hvalid _) not_mem_nil).1, rfl⟩
  obtain ⟨before, prior, after, hsplit, -, hagree⟩ := hloses _ _ _ hdropped
  have hprior : prior ∈ [((.nan : JsNumber), registeredAgent (ofString "a"))] := by
    rw [hsplit]
    exact mem_append_cons_self
  obtain rfl := mem_singleton.mp hprior
  obtain ⟨key, hkey, -⟩ | ⟨-, -, hagree⟩ := hagree
  · cases hkey
  · have hagents : ofString "a" = ofString "b" := Option.some.inj hagree.agentId
    exact absurd hagents (by decide +kernel)

end Nobie.Orchestration
