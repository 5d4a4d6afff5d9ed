/-
# The rate limit of capabilities

A call that is allowed under a limit takes a lease before it runs. Under its key are counted the
leases that are out and the calls of the last minute, of which the older ones are dropped when a
call asks. The key is the agent, the binding, the tool and the secret scope between colons, and
tells them apart where they have no colon and are not the words that stand for none.
-/

import Nobie.Foundation.Transition
import Nobie.Security.RegisteredNames

namespace Nobie.Security

open Foundation List JsString

/-! ## Leases -/

/-- A `rateLimit` that the validator of policies takes: finite numbers of at least one. -/
structure RateLimit where
  maxConcurrentCalls : ℚ
  maxCallsPerMinute : Option ℚ
  one_le_concurrent : 1 ≤ maxConcurrentCalls
  one_le_calls : ∀ calls ∈ maxCallsPerMinute, 1 ≤ calls

/-- What is counted under a key. -/
structure KeyState where
  concurrent : ℕ
  calls : List ℤ

/-- A granted call, until and after its release. -/
structure Lease where
  key : JsString
  time : ℤ
  released : Bool

/-- What is counted under each key, where one without an entry has nothing in it, the leases that
were granted, and when a call last asked for one. -/
structure RateBooks where
  rateLimitState : JsString → KeyState
  leases : List Lease
  asked : ℤ

def RateBooks.start (now : ℤ) : RateBooks := ⟨fun _ => ⟨0, []⟩, [], now⟩

def RateBooks.put (books : RateBooks) (key : JsString) (state : KeyState) (now : ℤ) : RateBooks :=
  { books with rateLimitState := Function.update books.rateLimitState key state, asked := now }

/-- What a call reads of the decision on it. -/
structure RateDecision where
  allowed : Bool
  rateLimitKey : Option JsString
  rateLimit : Option RateLimit

/-- The key and the limit of a call that is counted. -/
def RateDecision.budget? (decision : RateDecision) : Option (JsString × RateLimit) :=
  if decision.allowed && isFilled decision.rateLimitKey then
    decision.rateLimitKey.bind fun key => decision.rateLimit.map fun limit => (key, limit)
  else none

inductive RateAnswer
  | unlimited | granted
  | refused (message : String)

def rateLimitError (bound : String) (reached : ℕ) (most : ℤ) : String :=
  s!"agent capability rate limit exceeded: {bound}={reached}, max={most}"

/-- The error of the bound that is reached. -/
def exceeded? (state : KeyState) (limit : RateLimit) : Option String :=
  let maxConcurrent := max 1 ⌊limit.maxConcurrentCalls⌋
  if maxConcurrent ≤ state.concurrent then
    some (rateLimitError "concurrent" state.concurrent maxConcurrent)
  else
    limit.maxCallsPerMinute.bind fun perMinute =>
      let maxCalls := max 1 ⌊perMinute⌋
      if maxCalls ≤ state.calls.length then
        some (rateLimitError "calls_per_minute" state.calls.length maxCalls)
      else none

/-- The counts under a key when a call asks. -/
def KeyState.prune (state : KeyState) (now : ℤ) : KeyState :=
  { state with calls := state.calls.filter fun timestamp => now - 60000 < timestamp }

def acquireAgentCapabilityRateLimit (books : RateBooks) (decision : RateDecision) (now : ℤ) :
    RateAnswer × RateBooks :=
  match decision.budget? with
  | none => (.unlimited, { books with asked := now })
  | some (key, limit) =>
    let state := (books.rateLimitState key).prune now
    match exceeded? state limit with
    -- The entry is the object that was pruned, so that it keeps the shorter list.
    | some message => (.refused message, books.put key state now)
    | none =>
      (.granted,
        { books.put key ⟨state.concurrent + 1, state.calls ++ [now]⟩ now with
          leases := books.leases ++ [⟨key, now, false⟩] })

/-- The `release` of the lease at a place. -/
def RateBooks.release (books : RateBooks) (place : ℕ) : RateBooks :=
  match books.leases[place]? with
  | none => books
  | some lease =>
    if lease.released then books
    else
      let current := books.rateLimitState lease.key
      { books.put lease.key { current with concurrent := current.concurrent - 1 } books.asked with
        leases := books.leases.set place { lease with released := true } }

/-! ## Counts of the leases -/

/-- The leases of a key that are out. -/
def held (leases : List Lease) (key : JsString) : ℕ :=
  leases.countP fun lease => lease.key = key && !lease.released

/-- The calls of a key that were granted in the minute from a moment on. -/
def granted (leases : List Lease) (key : JsString) (start : ℤ) : ℕ :=
  leases.countP fun lease => lease.key = key && (start ≤ lease.time && lease.time < start + 60000)

section Counts

variable {leases : List Lease} {key other : JsString} {now start : ℤ} {place : ℕ} {lease : Lease}

theorem held_append : held (leases ++ [⟨key, now, false⟩]) other =
    held leases other + if key = other then 1 else 0 := by
  simp [held, countP_append, countP_singleton]

theorem granted_append : granted (leases ++ [⟨key, now, false⟩]) other start =
    granted leases other start +
      if key = other ∧ start ≤ now ∧ now < start + 60000 then 1 else 0 := by
  simp [granted, countP_append, countP_singleton]

theorem held_release (hlease : leases[place]? = some lease) (hout : lease.released = false) :
    held (leases.set place { lease with released := true }) other =
      held leases other - if lease.key = other then 1 else 0 := by
  obtain ⟨hplace, rfl⟩ := List.getElem?_eq_some_iff.mp hlease
  rw [held, countP_set hplace]
  simp [held, hout]

theorem granted_release (hlease : leases[place]? = some lease) :
    granted (leases.set place { lease with released := true }) other start =
      granted leases other start := by
  obtain ⟨hplace, rfl⟩ := List.getElem?_eq_some_iff.mp hlease
  rw [granted, countP_set hplace]
  refine Nat.sub_add_cancel ?_
  split
  · next hcounted => exact countP_pos_iff.mpr ⟨_, getElem_mem hplace, hcounted⟩
  · exact Nat.zero_le _

end Counts

/-! ## Bounds -/

theorem reached_iff {bound : ℚ} (hbound : 1 ≤ bound) (n : ℕ) :
    max 1 ⌊bound⌋ ≤ (n : ℤ) ↔ bound < n + 1 := by
  have hone : 1 ≤ ⌊bound⌋ := Int.le_floor.mpr (by exact_mod_cast hbound)
  rw [max_eq_right hone, ← Int.lt_add_one_iff, Int.floor_lt]
  push_cast
  rfl

theorem exceeded?_isSome_iff {state : KeyState} {limit : RateLimit} :
    (exceeded? state limit).isSome ↔ limit.maxConcurrentCalls < state.concurrent + 1 ∨
      ∃ calls ∈ limit.maxCallsPerMinute, calls < state.calls.length + 1 := by
  unfold exceeded?
  dsimp only
  rw [← reached_iff limit.one_le_concurrent]
  split
  · next hreached => exact iff_of_true rfl (.inl hreached)
  · next hroom =>
    rw [or_iff_right hroom]
    cases hcalls : limit.maxCallsPerMinute with
    | none => simp
    | some calls =>
      have hone := limit.one_le_calls calls hcalls
      simp only [Option.bind_some, Option.mem_some_iff, exists_eq_left', ← reached_iff hone]
      split <;> simp_all

/-- One more call of the key would pass a bound. -/
def Full (leases : List Lease) (limit : RateLimit) (key : JsString) (now : ℤ) : Prop :=
  limit.maxConcurrentCalls < held leases key + 1 ∨
    ∃ calls ∈ limit.maxCallsPerMinute, calls < granted leases key (now - 59999) + 1

/-! ## Runs -/

inductive RateCall
  | acquire (decision : RateDecision) (now : ℤ)
  | release (place : ℕ)

section Runs

variable (limits : JsString → RateLimit)

/-- A call under a clock that does not go back and with limits that are fixed for each key. -/
def Calls (books : RateBooks) : RateCall → RateBooks → Prop
  | .acquire decision now, next => books.asked ≤ now ∧
      (∀ key limit, decision.budget? = some (key, limit) → limit = limits key) ∧
      next = (acquireAgentCapabilityRateLimit books decision now).2
  | .release place, next => next = books.release place

/-- The bounds hold for every key and every minute. A call is refused where it would pass one, and
what was granted, on which all answers depend, is as before then. -/
structure BudgetsKept (books : RateBooks) : Prop where
  held_le : ∀ key, held books.leases key ≤ (limits key).maxConcurrentCalls
  granted_le : ∀ key, ∀ calls ∈ (limits key).maxCallsPerMinute, ∀ start,
    granted books.leases key start ≤ calls
  answers : ∀ decision now key, books.asked ≤ now → decision.budget? = some (key, limits key) →
    let result := acquireAgentCapabilityRateLimit books decision now
    (Full books.leases (limits key) key now →
      (∃ message, result.1 = .refused message) ∧ result.2.leases = books.leases) ∧
    (¬ Full books.leases (limits key) key now →
      result.1 = .granted ∧ result.2.leases = books.leases ++ [⟨key, now, false⟩])

/-- What is counted under the keys is what the leases say. -/
structure Counted (books : RateBooks) : Prop where
  concurrent : ∀ key, (books.rateLimitState key).concurrent = held books.leases key
  calls : ∀ key now, books.asked ≤ now →
    (books.rateLimitState key).calls.countP (fun timestamp => now - 60000 < timestamp) =
      granted books.leases key (now - 59999)
  past : ∀ lease ∈ books.leases, lease.time ≤ books.asked
  held_le : ∀ key, held books.leases key ≤ (limits key).maxConcurrentCalls
  granted_le : ∀ key, ∀ calls ∈ (limits key).maxCallsPerMinute, ∀ start,
    granted books.leases key start ≤ calls

variable {limits} {books : RateBooks} {decision : RateDecision} {now : ℤ} {key : JsString}
  (h : Counted limits books)

include h

theorem Counted.exceeded_iff (hnow : books.asked ≤ now) :
    (exceeded? ((books.rateLimitState key).prune now) (limits key)).isSome ↔
      Full books.leases (limits key) key now := by
  have hcalls : ((books.rateLimitState key).prune now).calls.length =
      granted books.leases key (now - 59999) :=
    countP_eq_length_filter.symm.trans (h.calls key now hnow)
  have hconcurrent : ((books.rateLimitState key).prune now).concurrent = held books.leases key :=
    h.concurrent key
  rw [exceeded?_isSome_iff, hcalls, hconcurrent]
  rfl

theorem Counted.keeps : BudgetsKept limits books where
  held_le := h.held_le
  granted_le := h.granted_le
  answers decision now key hnow hbudget := by
    rw [← h.exceeded_iff hnow]
    simp only [acquireAgentCapabilityRateLimit, hbudget]
    cases exceeded? ((books.rateLimitState key).prune now) (limits key) with
    | some message => exact ⟨fun _ => ⟨⟨message, rfl⟩, rfl⟩, fun hroom => absurd rfl hroom⟩
    | none => exact ⟨nofun, fun _ => ⟨rfl, rfl⟩⟩

theorem Counted.calls_prune {later : ℤ} (hnow : books.asked ≤ now) (hlater : now ≤ later) :
    ((books.rateLimitState key).prune now).calls.countP
        (fun timestamp => later - 60000 < timestamp) =
      granted books.leases key (later - 59999) := by
  rw [← h.calls key later (hnow.trans hlater), KeyState.prune, countP_filter]
  refine countP_congr fun timestamp _ => ?_
  simp only [Bool.and_eq_true, decide_eq_true_eq]
  omega

theorem Counted.refuse (hnow : books.asked ≤ now) :
    Counted limits (books.put key ((books.rateLimitState key).prune now) now) where
  concurrent other := by
    unfold RateBooks.put
    by_cases hother : other = key
    · subst hother
      simpa [KeyState.prune] using h.concurrent other
    · simpa [hother] using h.concurrent other
  calls other later hlater := by
    unfold RateBooks.put
    by_cases hother : other = key
    · subst hother
      simpa using h.calls_prune hnow hlater
    · simpa [hother] using h.calls other later (hnow.trans hlater)
  past lease hlease := (h.past lease hlease).trans hnow
  held_le := h.held_le
  granted_le := h.granted_le

theorem Counted.grant (hnow : books.asked ≤ now)
    (hroom : ¬ Full books.leases (limits key) key now) :
    Counted limits
      { books.put key ⟨((books.rateLimitState key).prune now).concurrent + 1,
          ((books.rateLimitState key).prune now).calls ++ [now]⟩ now with
        leases := books.leases ++ [⟨key, now, false⟩] } where
  concurrent other := by
    rw [held_append]
    unfold RateBooks.put
    by_cases hother : other = key
    · subst hother
      simpa [KeyState.prune] using h.concurrent other
    · simpa [hother, Ne.symm hother] using h.concurrent other
  calls other later hlater := by
    have hlater : now ≤ later := hlater
    rw [granted_append]
    unfold RateBooks.put
    by_cases hother : other = key
    · subst hother
      simp only [Function.update_self, countP_append, h.calls_prune hnow hlater, countP_singleton,
        decide_eq_true_eq, true_and]
      refine congrArg _ (if_congr ?_ rfl rfl)
      omega
    · simpa [hother, Ne.symm hother] using h.calls other later (hnow.trans hlater)
  past lease hlease := by
    rcases mem_append.mp hlease with hbefore | hnew
    · exact (h.past lease hbefore).trans hnow
    · cases mem_singleton.mp hnew
      exact le_refl now
  held_le other := by
    rw [held_append]
    split
    · next hsame =>
      subst hsame
      have hleft := not_lt.mp (not_or.mp hroom).1
      exact_mod_cast hleft
    · exact h.held_le other
  granted_le other calls hcalls start := by
    rw [granted_append]
    split
    · next hcounted =>
      obtain ⟨rfl, hstart, hend⟩ := hcounted
      have hleft := not_lt.mp fun hfull => (not_or.mp hroom).2 ⟨calls, hcalls, hfull⟩
      -- The calls of this minute so far are within the last minute.
      have hless : granted books.leases key start ≤ granted books.leases key (now - 59999) := by
        refine countP_mono_left fun lease hlease hcount => ?_
        have hpast := (h.past lease hlease).trans hnow
        simp only [Bool.and_eq_true, decide_eq_true_eq] at hcount ⊢
        exact ⟨hcount.1, by omega, by omega⟩
      have hless : (granted books.leases key start : ℚ) ≤
          granted books.leases key (now - 59999) := Nat.cast_le.mpr hless
      push_cast
      linarith
    · exact h.granted_le other calls hcalls start

theorem Counted.release (place : ℕ) : Counted limits (books.release place) := by
  unfold RateBooks.release
  split
  · exact h
  · next lease hlease =>
    split
    · exact h
    · next hout =>
      have hout := Bool.eq_false_iff.mpr hout
      refine ⟨fun other => ?_, fun other now hnow => ?_, fun later hlater => ?_, fun other => ?_,
        fun other calls hcalls start => ?_⟩
      · rw [held_release hlease hout, ← h.concurrent other]
        unfold RateBooks.put
        by_cases hother : other = lease.key
        · subst hother
          simp
        · simp [hother, Ne.symm hother]
      · rw [granted_release hlease, ← h.calls other now hnow]
        unfold RateBooks.put
        by_cases hother : other = lease.key
        · subst hother
          simp
        · simp [hother]
      · rcases mem_or_eq_of_mem_set hlater with hmem | rfl
        · exact h.past later hmem
        · exact h.past lease (mem_of_getElem? hlease)
      · rw [held_release hlease hout]
        exact (Nat.cast_le.mpr (Nat.sub_le _ _)).trans (h.held_le other)
      · rw [granted_release hlease]
        exact h.granted_le other calls hcalls start

theorem Counted.call {call : RateCall} {next : RateBooks} (hcall : Calls limits books call next) :
    Counted limits next := by
  cases call with
  | release place =>
    obtain rfl := hcall
    exact h.release place
  | acquire decision now =>
    obtain ⟨hnow, hfixed, rfl⟩ := hcall
    unfold acquireAgentCapabilityRateLimit
    split
    · exact ⟨h.concurrent, fun key later hlater => h.calls key later (hnow.trans hlater),
        fun lease hlease => (h.past lease hlease).trans hnow, h.held_le, h.granted_le⟩
    · next key limit hbudget =>
      obtain rfl := hfixed key limit hbudget
      dsimp only
      split
      · exact h.refuse hnow
      · next hnone =>
        refine h.grant hnow fun hfull => ?_
        have hsome := (h.exceeded_iff hnow).mpr hfull
        rw [hnone] at hsome
        cases hsome

end Runs

theorem counted_start (limits : JsString → RateLimit) (now : ℤ) : Counted limits (.start now) where
  concurrent _ := rfl
  calls _ _ _ := rfl
  past _ := nofun
  held_le key := zero_le_one.trans (limits key).one_le_concurrent
  granted_le key calls hcalls _ := zero_le_one.trans ((limits key).one_le_calls calls hcalls)

/-! ## Keys -/

/-- What a key is made of. -/
structure RateIdentity where
  agentId : JsString
  bindingId : Option JsString
  toolName : JsString
  secretScopeId : Option JsString
  deriving DecidableEq

/-- The tool's part of a key. -/
def toolPart (toolName : JsString) : JsString :=
  match parseMcpRegisteredToolName toolName with
  | some tool => ofString "mcp:" ++ (tool.serverId ++ colon :: tool.toolName)
  | none => ofString "tool:" ++ toolName

/-- `rateLimitKey` of an allowed call. -/
def RateIdentity.key (identity : RateIdentity) : JsString :=
  joinWith colon
    [ofString "agent", identity.agentId,
      ofString "binding:" ++ identity.bindingId.getD (ofString "implicit"),
      toolPart identity.toolName,
      ofString "secret:" ++ identity.secretScopeId.getD (ofString "none")]

/-- What the key of a call is made of, if an agent's policy allows it. -/
def rateIdentity? (host : CaseHost)
    (getAgentCapabilityBinding : JsString → Option AgentCapabilityBinding) (toolName : JsString)
    (riskLevel : Option CapabilityRiskLevel) (ctx : ToolContext) : Option RateIdentity :=
  let decision := evaluateAgentToolCapabilityPolicy host getAgentCapabilityBinding toolName
    riskLevel ctx
  let allowlist := normalizeSkillMcpAllowlist (ctx.policyAllowlist.getD .empty)
  let secretScopeId := (ctx.secretScopeId.or allowlist.secretScopeId).or ctx.parentSecretScopeId
  if decision.allowed && decision.reasonCode ≠ .legacyNoAgentContext then
    match resolveAgentBindingDecision host getAgentCapabilityBinding toolName
        (ctx.agentId.getD []) ctx.capabilityBindingId (parseMcpRegisteredToolName toolName) with
    | .ok bindingId =>
      some ⟨ctx.agentId.getD [], bindingId, toolName, secretScopeId.filter fun id => id ≠ []⟩
    | .error _ => none
  else none

/-- The parts have no colon and are not the words that stand for none, and an MCP tool has the name
that its server and its tool make. -/
structure RateIdentity.Plain (identity : RateIdentity) : Prop where
  agent : colon ∉ identity.agentId
  binding : ∀ id ∈ identity.bindingId, colon ∉ id ∧ id ≠ ofString "implicit"
  tool : ∀ tool ∈ parseMcpRegisteredToolName identity.toolName, colon ∉ tool.serverId ∧
    identity.toolName = registeredNameOf tool.serverId tool.toolName
  scope : ∀ id ∈ identity.secretScopeId, colon ∉ id ∧ id ≠ ofString "none"

theorem colon_not_mem_getD {id : Option JsString} {word : JsString} (hword : colon ∉ word)
    (hplain : ∀ text ∈ id, colon ∉ text ∧ text ≠ word) : colon ∉ id.getD word := by
  cases id with
  | none => exact hword
  | some text => exact (hplain text rfl).1

theorem eq_of_getD_eq {first second : Option JsString} {word : JsString}
    (hfirst : ∀ text ∈ first, colon ∉ text ∧ text ≠ word)
    (hsecond : ∀ text ∈ second, colon ∉ text ∧ text ≠ word)
    (hsame : first.getD word = second.getD word) : first = second := by
  cases first <;> cases second <;> simp_all

section

variable {first second : RateIdentity} (hfirst : first.Plain) (hsecond : second.Plain)
include hfirst hsecond

theorem toolPart_injective (hsame : toolPart first.toolName = toolPart second.toolName) :
    first.toolName = second.toolName := by
  have hkinds (left right : JsString) : ofString "mcp:" ++ left ≠ ofString "tool:" ++ right := by
    intro heq
    have hunit := congrArg (take 1) heq
    rw [take_append_of_le_length (by decide), take_append_of_le_length (by decide)] at hunit
    exact absurd hunit (by decide)
  unfold toolPart at hsame
  split at hsame
  · next tool htool =>
    split at hsame
    · next other hother =>
      obtain ⟨hcolon, hname⟩ := hfirst.tool tool htool
      obtain ⟨hcolon', hname'⟩ := hsecond.tool other hother
      obtain ⟨hserver, hrest⟩ := append_cons_cancel hcolon hcolon' (append_cancel_left hsame)
      rw [hname, hname', hserver, hrest]
    · exact absurd hsame (hkinds _ _)
  · split at hsame
    · exact absurd hsame.symm (hkinds _ _)
    · exact append_cancel_left hsame

/-- The key of a plain call can be read back. -/
theorem RateIdentity.key_injective (hsame : first.key = second.key) : first = second := by
  have hsecret (text : JsString) :
      ofString "secret:" ++ text = ofString "secret" ++ colon :: text :=
    append_assoc (ofString "secret") [colon] text
  simp only [RateIdentity.key, joinWith, hsecret, append_assoc] at hsame
  have hrest := (cons.inj (append_cancel_left hsame)).2
  obtain ⟨hagent, hrest⟩ := append_cons_cancel hfirst.agent hsecond.agent hrest
  obtain ⟨hbinding, hrest⟩ := append_cons_cancel
    (colon_not_mem_getD (by decide) hfirst.binding)
    (colon_not_mem_getD (by decide) hsecond.binding) (append_cancel_left hrest)
  rw [← cons_append, ← append_assoc, ← cons_append, ← append_assoc] at hrest
  obtain ⟨htool, hscope⟩ := append_cons_cancel_right
    (colon_not_mem_getD (by decide) hfirst.scope)
    (colon_not_mem_getD (by decide) hsecond.scope) hrest
  have htool := toolPart_injective hfirst hsecond (append_cancel_right htool)
  have hbinding := eq_of_getD_eq hfirst.binding hsecond.binding hbinding
  have hscope := eq_of_getD_eq hfirst.scope hsecond.scope hscope
  cases first
  cases second
  simp_all

end

/-- An agent that may read files, with a secret scope or none. -/
def fileReader (secretScopeId : Option JsString) : ToolContext where
  agentId := some (ofString "reader")
  capabilityPolicy := none
  permissionProfile := some ⟨[], .moderate, .dangerous, false, false, false, false⟩
  skillMcpAllowlist := none
  delegationDepth := none
  depthScopedToolPolicy := none
  capabilityBindingId := none
  secretScopeId := secretScopeId
  parentSecretScopeId := none
  allowParentSecretFallback := false
  fallbackSecretScopeAllowlist := none
  auditId := none

end Nobie.Security
