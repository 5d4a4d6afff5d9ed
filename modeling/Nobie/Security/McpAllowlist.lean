/-
# What an MCP allowlist lists

An allowlist names servers and tools as they are configured, while the check reads the names
back off the registered name of a tool, where other characters have become underscores. The two
agree on every allowlist exactly if the configured names have nothing for the sanitizer to do
that the normalization of the lists does not do, and if no two of them become one.
-/

import Nobie.Security.RegisteredNames

namespace Nobie.Security

open Foundation Mcp List JsString

section

open Bool

/-! ## Configured tools -/

/-- A tool that a configured server has. -/
structure McpTool where
  (serverName toolName : JsString)
  deriving DecidableEq

namespace McpTool

variable (host : CaseHost) (tool : McpTool)

def registeredName : JsString := toRegisteredToolName host tool.serverName tool.toolName

def serverSegment : JsString := sanitizeSegment host tool.serverName

def toolSegment : JsString := sanitizeSegment host tool.toolName

/-- The entries that name the tool together with its server. -/
def qualifiedEntries : List JsString :=
  [tool.serverName ++ colon :: tool.toolName, tool.registeredName host]

/-- What the entries that name the tool become. -/
def aliases : List JsString :=
  (tool.toolName :: tool.qualifiedEntries host).map (normalizeToken host)

end McpTool

variable (host : CaseHost) (allowlist : SkillMcpAllowlist)

def enabledServers : List JsString :=
  makeSet host (normalizeStringList allowlist.enabledMcpServerIds)

def enabledTools : List JsString := makeSet host (normalizeStringList allowlist.enabledToolNames)

def disabledTools : List JsString := makeSet host (normalizeStringList allowlist.disabledToolNames)

/-- Both lists name something. -/
structure Restricts (host : CaseHost) (allowlist : SkillMcpAllowlist) : Prop where
  servers : enabledServers host allowlist ≠ []
  tools : enabledTools host allowlist ≠ []

/-- The server of the tool is listed, and so is the tool, and not among what is disabled. -/
structure Listed (host : CaseHost) (allowlist : SkillMcpAllowlist) (tool : McpTool) : Prop where
  server : normalizeToken host tool.serverName ∈ enabledServers host allowlist
  enabled : ∃ name ∈ tool.aliases host, name ∈ enabledTools host allowlist
  notDisabled : ∀ name ∈ tool.aliases host, name ∉ disabledTools host allowlist

/-! ## Calls that come to the lists -/

/-- What the policy is asked with. -/
structure PolicyCall where
  getAgentCapabilityBinding : JsString → Option AgentCapabilityBinding
  riskLevel : Option CapabilityRiskLevel
  ctx : ToolContext

/-- The call has the allowlist, and nothing before the lists denies it. -/
structure PolicyCall.AsksLists (host : CaseHost) (call : PolicyCall)
    (allowlist : SkillMcpAllowlist) (toolName : JsString) : Prop where
  agent : isBlank call.ctx.agentId = false
  profile : call.ctx.policyProfile.isSome
  lists : call.ctx.policyAllowlist = some (normalizeSkillMcpAllowlist allowlist)
  before : denialBeforeLists host call.getAgentCapabilityBinding toolName
    (call.ctx.agentId.getD []) (parseMcpRegisteredToolName toolName) call.ctx = none

/-- The check of the server and the check of the tool let the call pass. -/
def PolicyCall.LetsPass (call : PolicyCall) (toolName : JsString) : Prop :=
  let decision := evaluateAgentToolCapabilityPolicy host call.getAgentCapabilityBinding toolName
    call.riskLevel call.ctx
  decision.reasonCode ≠ .mcpServerNotAllowed ∧ decision.reasonCode ≠ .toolNotAllowed

/-- The lists let a tool run that is called by this name. -/
def passesToolCheck (toolName : JsString) : Bool :=
  isToolAllowedBySkillMcpAllowlist host toolName allowlist (parseMcpRegisteredToolName toolName)

/-- The name is one that a tool of this program may have: letters, digits and underscores. -/
structure IsBuiltInName (name : JsString) : Prop where
  units : ∀ unit ∈ name, isLetterOrDigit unit ∨ unit = underscore
  notMcp : startsWith name (ofString "mcp__") = false

/-- The entry enables the bridge of the tool. -/
def EntryEnables (entry : JsString) (tool : McpTool) : Prop :=
  normalizeToken host entry ∈ namesOf host (tool.registeredName host)
    (parseMcpRegisteredToolName (tool.registeredName host))

/-- The bridge of the tool is among what is left of the statuses. -/
def IsShown (statuses : List McpServerStatus) (allowlist : SkillMcpAllowlist) (tool : McpTool) :
    Prop :=
  ∃ status ∈ filterMcpStatusesForAgentAllowlist host statuses allowlist,
    status.name = tool.serverName ∧
      ∃ shown ∈ status.tools, shown.registeredName = tool.registeredName host

/-- Every allowlist that names servers and tools means what it lists, for the configured tools. -/
structure AllowlistMeansWhatItLists (host : CaseHost) (tools : List McpTool) : Prop where
  gate : ∀ tool ∈ tools, ∀ allowlist, Restricts host allowlist → ∀ call : PolicyCall,
    call.AsksLists host allowlist (tool.registeredName host) →
      (call.LetsPass host (tool.registeredName host) ↔ Listed host allowlist tool)
  qualified : ∀ tool ∈ tools, ∀ allowlist, Restricts host allowlist →
    (∀ entry ∈ allowlist.enabledToolNames, entry ∈ tool.qualifiedEntries host) →
      (∀ other ∈ tools, other ≠ tool →
        passesToolCheck host allowlist (other.registeredName host) = false) ∧
      ∀ name, IsBuiltInName name → passesToolCheck host allowlist name = false
  unshared : ∀ tool ∈ tools, ∀ other ∈ tools, tool.toolName ≠ other.toolName →
    ∀ entry, ¬ (EntryEnables host entry tool ∧ EntryEnables host entry other)
  shown : ∀ tool ∈ tools, ∀ allowlist, Restricts host allowlist → ∀ call : PolicyCall,
    call.AsksLists host allowlist (tool.registeredName host) → ∀ statuses : List McpServerStatus,
      (∃ status ∈ statuses, status.name = tool.serverName ∧
        ∃ found ∈ status.tools, found.registeredName = tool.registeredName host) →
      (IsShown host statuses allowlist tool ↔ call.LetsPass host (tool.registeredName host))

/-- The sanitizer makes of the configured names what the lists make of them, and of different
ones different segments. -/
structure PlainNames (host : CaseHost) (tools : List McpTool) : Prop where
  server : ∀ tool ∈ tools, normalizeToken host tool.serverName = tool.serverSegment host
  tool : ∀ tool ∈ tools, normalizeToken host tool.toolName = tool.toolSegment host
  pair : ∀ tool ∈ tools, normalizeToken host (tool.serverName ++ colon :: tool.toolName) =
    tool.serverSegment host ++ colon :: tool.toolSegment host
  distinct : ∀ tool ∈ tools, ∀ other ∈ tools, tool.serverSegment host = other.serverSegment host →
    tool.toolSegment host = other.toolSegment host → tool = other
  named : ∀ tool ∈ tools, ∀ other ∈ tools, tool.toolSegment host = other.toolSegment host →
    tool.toolName = other.toolName

/-! ## Lists that are normalized -/

variable {values : List JsString} (toolName : JsString)

theorem mem_normalizeStringList {value : JsString} :
    value ∈ normalizeStringList values ↔ (∃ item ∈ values, trim item = value) ∧ value ≠ [] := by
  have hmem := OrderedSet.mem_ofList
    ((values.map trim).filter fun value => value ≠ []) value
  rw [mem_filter, mem_map, decide_eq_true_eq] at hmem
  exact hmem

theorem normalizeStringList_normalizeStringList (values : List JsString) :
    normalizeStringList (normalizeStringList values) = normalizeStringList values := by
  have htrim : (normalizeStringList values).map trim = normalizeStringList values := by
    refine (map_congr_left fun value hvalue => ?_).trans (map_id _)
    obtain ⟨⟨item, -, rfl⟩, -⟩ := mem_normalizeStringList.mp hvalue
    exact trim_trim item
  have hfilter : (normalizeStringList values).filter (fun value => value ≠ []) =
      normalizeStringList values :=
    filter_eq_self.mpr fun value hvalue => decide_eq_true (mem_normalizeStringList.mp hvalue).2
  conv => lhs; rw [normalizeStringList, htrim, hfilter]
  exact OrderedSet.elements_ofList (OrderedSet.nodup _)

@[simp]
theorem anyAmong_iff {set names : List JsString} :
    anyAmong set names ↔ ∃ name ∈ names, name ∈ set := by
  unfold anyAmong
  rw [any_eq_true]
  exact exists_congr fun name => and_congr_right fun _ => isAmong_iff

variable {host : CaseHost} {token : JsString} (mcpTool : Option McpRegisteredToolRef)
  {call : PolicyCall}

theorem mem_makeSet :
    token ∈ makeSet host values ↔ (∃ value ∈ values, normalizeToken host value = token) ∧ token ≠ [] := by
  unfold makeSet
  rw [mem_filter, mem_map, decide_eq_true_eq]

/-- A list in front of another that only trims it has the same tokens. -/
theorem mem_makeSet_normalizeStringList (htoken : token ∈ makeSet host (normalizeStringList values))
    :
    ∃ value ∈ values, normalizeToken host value = token := by
  obtain ⟨⟨value, hvalue, rfl⟩, -⟩ := mem_makeSet.mp htoken
  obtain ⟨⟨item, hitem, rfl⟩, -⟩ := mem_normalizeStringList.mp hvalue
  exact ⟨item, hitem, (normalizeToken_trim host item).symm⟩

section Checks

variable {host : CaseHost} {allowlist : SkillMcpAllowlist}

theorem isMcpServerAllowed_iff (hlist : enabledServers host allowlist ≠ []) (serverId : JsString) :
    isMcpServerAllowed host serverId allowlist ↔
      normalizeToken host serverId ∈ enabledServers host allowlist := by
  unfold isMcpServerAllowed
  rw [if_neg (show makeSet host (normalizeSkillMcpAllowlist allowlist).enabledMcpServerIds ≠ [] from
    hlist)]
  exact isAmong_iff

theorem isToolAllowed_iff (hlist : enabledTools host allowlist ≠ []) (toolName : JsString)
    (mcpTool : Option McpRegisteredToolRef) :
    isToolAllowedBySkillMcpAllowlist host toolName allowlist mcpTool ↔
      (∃ name ∈ namesOf host toolName mcpTool, name ∈ enabledTools host allowlist) ∧
        ∀ name ∈ namesOf host toolName mcpTool, name ∉ disabledTools host allowlist := by
  unfold isToolAllowedBySkillMcpAllowlist
  dsimp only
  split
  · rename_i hdisabled
    obtain ⟨name, hname, hmem⟩ := anyAmong_iff.mp hdisabled
    exact ⟨fun h => absurd h Bool.false_ne_true, fun h => absurd hmem (h.2 name hname)⟩
  · rename_i hdisabled
    rw [if_neg (show makeSet host (normalizeSkillMcpAllowlist allowlist).enabledToolNames ≠ [] from
      hlist), anyAmong_iff]
    refine ⟨fun h => ⟨h, fun name hname hmem => ?_⟩, fun h => h.1⟩
    exact hdisabled (anyAmong_iff.mpr ⟨name, hname, hmem⟩)

theorem isMcpServerAllowed_normalize (serverId : JsString) :
    isMcpServerAllowed host serverId (normalizeSkillMcpAllowlist allowlist) =
      isMcpServerAllowed host serverId allowlist := by
  have hservers := normalizeStringList_normalizeStringList allowlist.enabledMcpServerIds
  unfold isMcpServerAllowed normalizeSkillMcpAllowlist
  rw [hservers]

theorem isToolAllowed_normalize :
    isToolAllowedBySkillMcpAllowlist host toolName (normalizeSkillMcpAllowlist allowlist) mcpTool =
      isToolAllowedBySkillMcpAllowlist host toolName allowlist mcpTool := by
  have henabled := normalizeStringList_normalizeStringList allowlist.enabledToolNames
  have hdisabled := normalizeStringList_normalizeStringList allowlist.disabledToolNames
  unfold isToolAllowedBySkillMcpAllowlist normalizeSkillMcpAllowlist
  rw [henabled, hdisabled]

end Checks

/-! ## The gate -/

theorem blockReason_ne (risk : CapabilityRiskLevel) (profile : PermissionProfile) :
    resolvePermissionProfileBlockReason toolName risk profile ≠ some .mcpServerNotAllowed ∧
      resolvePermissionProfileBlockReason toolName risk profile ≠ some .toolNotAllowed := by
  unfold resolvePermissionProfileBlockReason
  split_ifs <;> exact ⟨by decide, by decide⟩

theorem denialByLists_cases (host : CaseHost) (toolName : JsString)
    (mcpTool : Option McpRegisteredToolRef) (ctx : ToolContext) :
    denialByLists host toolName mcpTool ctx = none ∨
      denialByLists host toolName mcpTool ctx = some .mcpServerNotAllowed ∨
        denialByLists host toolName mcpTool ctx = some .toolNotAllowed := by
  unfold denialByLists
  dsimp only
  split_ifs
  · exact Or.inr (Or.inl rfl)
  · exact Or.inr (Or.inr rfl)
  · exact Or.inl rfl

/-- A call that comes to the lists is let pass by them if they have nothing against it. -/
theorem PolicyCall.AsksLists.letsPass_iff {allowlist : SkillMcpAllowlist} {toolName : JsString}
    (hasks : call.AsksLists host allowlist toolName) :
    call.LetsPass host toolName ↔
      denialByLists host toolName (parseMcpRegisteredToolName toolName) call.ctx = none := by
  obtain ⟨profile, hprofile⟩ := Option.isSome_iff_exists.mp hasks.profile
  unfold PolicyCall.LetsPass evaluateAgentToolCapabilityPolicy
  simp only [hprofile, hasks.before, hasks.agent, Option.isSome_some, Bool.or_true, Bool.true_or,
    Bool.not_true, false_eq_true, if_false]
  obtain hnone | hserver | htool := denialByLists_cases host toolName
    (parseMcpRegisteredToolName toolName) call.ctx
  · rw [hnone]
    dsimp only
    refine iff_of_true ?_ rfl
    have hblock := blockReason_ne toolName
      (resolveToolCapabilityRisk toolName (call.riskLevel.getD .safe)) profile
    split
    · rename_i reason hreason
      rw [hreason] at hblock
      exact ⟨fun h => hblock.1 (congrArg some h), fun h => hblock.2 (congrArg some h)⟩
    · dsimp only
      split_ifs <;> exact ⟨by decide, by decide⟩
  · rw [hserver]
    exact iff_of_false (fun h => h.1 rfl) (by decide)
  · rw [htool]
    exact iff_of_false (fun h => h.2 rfl) (by decide)

section Gate

variable {host : CaseHost} {allowlist : SkillMcpAllowlist} (tool : McpTool)

theorem McpTool.parse_registeredName :
    parseMcpRegisteredToolName (tool.registeredName host) =
      some ⟨tool.registeredName host, tool.serverSegment host, tool.toolSegment host⟩ := by
  unfold McpTool.registeredName McpTool.serverSegment McpTool.toolSegment
  rw [toRegisteredToolName_eq]
  exact parse_registeredNameOf (isSegment_sanitizeSegment _ _) (isSegment_sanitizeSegment _ _)

/-- The gate asks for the segments of the registered name. -/
theorem letsPass_iff (hasks : call.AsksLists host allowlist (tool.registeredName host)) :
    call.LetsPass host (tool.registeredName host) ↔
      isMcpServerAllowed host (tool.serverSegment host) allowlist ∧
        passesToolCheck host allowlist (tool.registeredName host) := by
  rw [hasks.letsPass_iff]
  unfold denialByLists passesToolCheck
  rw [hasks.lists, Option.getD_some]
  simp only [tool.parse_registeredName, isMcpServerAllowed_normalize, isToolAllowed_normalize]
  split_ifs with hserver htool
  · rw [not_eq_true'] at hserver
    exact iff_of_false (by decide) fun h => absurd (hserver.symm.trans h.1) Bool.false_ne_true
  · rw [not_eq_true'] at htool
    exact iff_of_false (by decide) fun h => absurd (htool.symm.trans h.2) Bool.false_ne_true
  · rw [not_eq_true', not_eq_false] at hserver htool
    exact iff_of_true rfl ⟨hserver, htool⟩

/-- A status with the tool keeps it if one of the two names of its server is listed. -/
theorem isShown_iff {statuses : List McpServerStatus}
    (hthere : ∃ status ∈ statuses, status.name = tool.serverName ∧
      ∃ found ∈ status.tools, found.registeredName = tool.registeredName host) :
    IsShown host statuses allowlist tool ↔
      (isMcpServerAllowed host (tool.serverSegment host) allowlist ∨
        isMcpServerAllowed host tool.serverName allowlist) ∧
        passesToolCheck host allowlist (tool.registeredName host) := by
  constructor
  · rintro ⟨_, hmem, hname, found, hfound, hregistered⟩
    obtain ⟨status, hstatus, rfl⟩ := mem_map.mp hmem
    obtain ⟨-, hserver⟩ := mem_filter.mp hstatus
    obtain ⟨-, hcheck⟩ := mem_filter.mp hfound
    rw [hname, or_eq_true] at hserver
    rw [hregistered] at hcheck
    exact ⟨hserver, hcheck⟩
  · rintro ⟨hserver, hcheck⟩
    obtain ⟨status, hstatus, hname, found, hfound, hregistered⟩ := hthere
    refine ⟨_, mem_map_of_mem (mem_filter.mpr ⟨hstatus, ?_⟩), hname, found, ?_, hregistered⟩
    · rw [hname, or_eq_true]
      exact hserver
    · refine mem_filter.mpr ⟨hfound, ?_⟩
      rw [hregistered]
      exact hcheck

end Gate

end

/-! ## Names that an allowlist can tell apart

A bridge goes by the segment of its tool, by the segments of server and tool with a colon between
them, and by its registered name. -/

/-! ## The names of a bridge -/

variable {name : JsString} {allowlist : SkillMcpAllowlist}

variable {unit : CodeUnit} {host : TokenHost} {tools : List McpTool}

section Names

variable (host : TokenHost) (tool other : McpTool)

/-- The segments of a tool with a colon between them. -/
def McpTool.segmentPair (host : CaseHost) (tool : McpTool) : JsString :=
  tool.serverSegment host ++ colon :: tool.toolSegment host

theorem McpTool.isSegment_server : IsSegment (tool.serverSegment host) :=
  isSegment_sanitizeSegment _ _

theorem McpTool.isSegment_tool : IsSegment (tool.toolSegment host) := isSegment_sanitizeSegment _ _

theorem McpTool.registeredName_eq : tool.registeredName host =
    registeredNameOf (tool.serverSegment host) (tool.toolSegment host) :=
  toRegisteredToolName_eq _ _ _

theorem McpTool.colon_mem_segmentPair : colon ∈ tool.segmentPair host := mem_append_cons_self

theorem McpTool.colon_not_mem_registeredName : colon ∉ tool.registeredName host := by
  rw [tool.registeredName_eq]
  exact colon_not_mem_registeredNameOf (tool.isSegment_server host) (tool.isSegment_tool host)

theorem McpTool.toolSegment_ne_segmentPair :
    tool.toolSegment host ≠ other.segmentPair host := fun h =>
  (tool.isSegment_tool host).colon_not_mem (h ▸ other.colon_mem_segmentPair host)

theorem McpTool.registeredName_ne_segmentPair :
    tool.registeredName host ≠ other.segmentPair host := fun h =>
  tool.colon_not_mem_registeredName host (h ▸ other.colon_mem_segmentPair host)

theorem McpTool.toolSegment_ne_registeredName :
    tool.toolSegment host ≠ other.registeredName host := by
  intro h
  have hchain := (tool.isSegment_tool host).apart
  rw [h, other.registeredName_eq] at hchain
  exact not_isChain_registeredNameOf _ _ hchain

theorem McpTool.segments_of_registeredName
    (h : tool.registeredName host = other.registeredName host) :
    tool.serverSegment host = other.serverSegment host ∧
      tool.toolSegment host = other.toolSegment host := by
  have hparse := congrArg parseMcpRegisteredToolName h
  rw [tool.parse_registeredName, other.parse_registeredName, Option.some_inj] at hparse
  exact ⟨congrArg McpRegisteredToolRef.serverId hparse, congrArg McpRegisteredToolRef.toolName hparse⟩

theorem McpTool.segments_of_segmentPair
    (h : tool.segmentPair host = other.segmentPair host) :
    tool.serverSegment host = other.serverSegment host ∧
      tool.toolSegment host = other.toolSegment host := by
  obtain ⟨hserver, -, htool⟩ := (append_cons_inj_of_notMem
    (tool.isSegment_server host).colon_not_mem (tool.isSegment_tool host).colon_not_mem).mp h
  exact ⟨hserver, htool⟩

theorem McpTool.token_of_mem_segmentPair (hunit : unit ∈ tool.segmentPair host) :
    isTokenUnit unit := by
  rw [McpTool.segmentPair, mem_append, mem_cons] at hunit
  obtain hunit | rfl | hunit := hunit
  · exact (tool.isSegment_server host).token hunit
  · exact isTokenUnit_colon
  · exact (tool.isSegment_tool host).token hunit

theorem McpTool.token_of_mem_registeredName (hunit : unit ∈ tool.registeredName host) :
    isTokenUnit unit := by
  rw [tool.registeredName_eq] at hunit
  exact token_of_mem_registeredNameOf (tool.isSegment_server host) (tool.isSegment_tool host) hunit

theorem McpTool.normalizeToken_registeredName :
    normalizeToken host (tool.registeredName host) = tool.registeredName host :=
  normalizeToken_of_token host fun _ => tool.token_of_mem_registeredName host

theorem McpTool.normalizeToken_serverSegment :
    normalizeToken host (tool.serverSegment host) = tool.serverSegment host :=
  normalizeToken_of_token host fun _ => (tool.isSegment_server host).token

/-- The bridge of a tool goes by its segment, by both segments and by its registered name. -/
theorem McpTool.mem_namesOf :
    name ∈ namesOf host (tool.registeredName host)
        (parseMcpRegisteredToolName (tool.registeredName host)) ↔
      name = tool.toolSegment host ∨ name = tool.segmentPair host ∨
        name = tool.registeredName host := by
  have htool : normalizeToken host (tool.toolSegment host) = tool.toolSegment host :=
    normalizeToken_of_token host fun _ => (tool.isSegment_tool host).token
  have hpair : normalizeToken host (tool.serverSegment host ++
      colon :: tool.toolSegment host) = tool.segmentPair host :=
    normalizeToken_of_token host fun _ => tool.token_of_mem_segmentPair host
  rw [tool.parse_registeredName, namesOf]
  rw [tool.normalizeToken_registeredName, htool, hpair]
  simp only [mem_cons, not_mem_nil, or_false]
  tauto

/-- Bridges that share a name have one segment for their tools, and one for their servers too if
the name is not that segment. -/
theorem McpTool.segments_of_shared
    (hname : name ∈ namesOf host (tool.registeredName host)
      (parseMcpRegisteredToolName (tool.registeredName host)))
    (hother : name ∈ namesOf host (other.registeredName host)
      (parseMcpRegisteredToolName (other.registeredName host))) :
    tool.toolSegment host = other.toolSegment host ∧
      (name = tool.toolSegment host ∨ tool.serverSegment host = other.serverSegment host) := by
  rw [McpTool.mem_namesOf] at hname hother
  obtain rfl | rfl | rfl := hname
  · obtain h | h | h := hother
    · exact ⟨h, Or.inl rfl⟩
    · exact absurd h (tool.toolSegment_ne_segmentPair host other)
    · exact absurd h (tool.toolSegment_ne_registeredName host other)
  · obtain h | h | h := hother
    · exact absurd h.symm (other.toolSegment_ne_segmentPair host tool)
    · obtain ⟨hserver, htool⟩ := tool.segments_of_segmentPair host other h
      exact ⟨htool, Or.inr hserver⟩
    · exact absurd h.symm (other.registeredName_ne_segmentPair host tool)
  · obtain h | h | h := hother
    · exact absurd h.symm (other.toolSegment_ne_registeredName host tool)
    · exact absurd h (tool.registeredName_ne_segmentPair host other)
    · obtain ⟨hserver, htool⟩ := tool.segments_of_registeredName host other h
      exact ⟨htool, Or.inr hserver⟩

end Names

/-! ## Plain names are enough -/

namespace PlainNames

variable {host : TokenHost} {tools : List McpTool} (h : PlainNames host tools)
  {tool : McpTool} (htool : tool ∈ tools)

include h htool

theorem mem_aliases :
    name ∈ tool.aliases host ↔
      name ∈ namesOf host (tool.registeredName host)
        (parseMcpRegisteredToolName (tool.registeredName host)) := by
  rw [McpTool.mem_namesOf, McpTool.aliases, McpTool.qualifiedEntries]
  simp only [map_cons, map_nil, mem_cons, not_mem_nil, or_false]
  rw [h.tool tool htool, h.pair tool htool, tool.normalizeToken_registeredName]
  rfl

theorem listed_iff (hlists : Restricts host allowlist) :
    Listed host allowlist tool ↔
      isMcpServerAllowed host (tool.serverSegment host) allowlist ∧
        passesToolCheck host allowlist (tool.registeredName host) := by
  rw [isMcpServerAllowed_iff hlists.servers, passesToolCheck, isToolAllowed_iff hlists.tools,
    tool.normalizeToken_serverSegment]
  simp only [← h.mem_aliases htool]
  rw [← h.server tool htool]
  exact ⟨fun hlisted => ⟨hlisted.server, hlisted.enabled, hlisted.notDisabled⟩,
    fun ⟨hserver, henabled, hdisabled⟩ => ⟨hserver, henabled, hdisabled⟩⟩

/-- What a qualified entry becomes is a name of the bridge, and more than its segment. -/
theorem qualified_name {entry : JsString} (hentry : entry ∈ tool.qualifiedEntries host) :
    normalizeToken host entry = tool.segmentPair host ∨
      normalizeToken host entry = tool.registeredName host := by
  rw [McpTool.qualifiedEntries, mem_cons, mem_singleton] at hentry
  obtain rfl | rfl := hentry
  · exact Or.inl (h.pair tool htool)
  · exact Or.inr (tool.normalizeToken_registeredName host)

section

variable (hlists : Restricts host allowlist)
  (hentries : ∀ entry ∈ allowlist.enabledToolNames, entry ∈ tool.qualifiedEntries host)
include hlists hentries

/-- Qualified entries enable no other bridge. -/
theorem other_denied {other : McpTool} (hother : other ∈ tools)
    (hne : other ≠ tool) :
    passesToolCheck host allowlist (other.registeredName host) = false := by
  rw [← Bool.not_eq_true, passesToolCheck, isToolAllowed_iff hlists.tools]
  rintro ⟨⟨name, hname, henabled⟩, -⟩
  obtain ⟨entry, hentry, rfl⟩ := mem_makeSet_normalizeStringList henabled
  have hqualified := h.qualified_name htool (hentries entry hentry)
  have hown := (tool.mem_namesOf host).mpr (Or.inr hqualified)
  obtain ⟨hsegment, hsame | hserver⟩ := tool.segments_of_shared host other hown hname
  · rw [hsame] at hqualified
    obtain hpair | hregistered := hqualified
    · exact tool.toolSegment_ne_segmentPair host tool hpair
    · exact tool.toolSegment_ne_registeredName host tool hregistered
  · exact hne (h.distinct tool htool other hother hserver hsegment).symm

/-- Qualified entries enable nothing that is built in. -/
theorem builtIn_denied (hname : IsBuiltInName name) :
    passesToolCheck host allowlist name = false := by
  have hparse : parseMcpRegisteredToolName name = none := by
    rw [parseMcpRegisteredToolName, hname.notMcp]
    rfl
  have htoken : normalizeToken host name = name := by
    refine normalizeToken_of_token host fun unit hunit => ?_
    obtain hkept | rfl := hname.units unit hunit
    · unfold isTokenUnit
      rw [hkept]
      rfl
    · exact isTokenUnit_underscore
  rw [← Bool.not_eq_true, passesToolCheck, isToolAllowed_iff hlists.tools, hparse]
  rintro ⟨⟨_, hmem, henabled⟩, -⟩
  rw [namesOf, mem_singleton, htoken] at hmem
  subst hmem
  obtain ⟨entry, hentry, hsame⟩ := mem_makeSet_normalizeStringList henabled
  obtain hpair | hregistered := h.qualified_name htool (hentries entry hentry)
  · have hcolon := tool.colon_mem_segmentPair host
    rw [← hpair, hsame] at hcolon
    obtain hkept | hunderscore := hname.units colon hcolon
    · cases hkept
    · cases hunderscore
  · have hstart : startsWith (tool.registeredName host) (ofString "mcp__") := by
      rw [McpTool.registeredName, toRegisteredToolName, append_assoc, append_assoc]
      exact startsWith_append _ _
    rw [← hregistered, hsame, hname.notMcp] at hstart
    cases hstart

end

end PlainNames

theorem PlainNames.means (h : PlainNames host tools) : AllowlistMeansWhatItLists host tools where
  gate tool htool allowlist hlists call hasks := by
    rw [letsPass_iff tool hasks, h.listed_iff htool hlists]
  qualified tool htool allowlist hlists hentries :=
    ⟨fun _ hother hne => h.other_denied htool hlists hentries hother hne,
      fun _ hname => h.builtIn_denied htool hlists hentries hname⟩
  unshared tool htool other hother hne entry hboth :=
    hne (h.named tool htool other hother (tool.segments_of_shared host other hboth.1 hboth.2).1)
  shown tool htool allowlist hlists call hasks statuses hthere := by
    have hserver : isMcpServerAllowed host tool.serverName allowlist ↔
        isMcpServerAllowed host (tool.serverSegment host) allowlist = true := by
      rw [isMcpServerAllowed_iff hlists.servers, isMcpServerAllowed_iff hlists.servers,
        h.server tool htool, tool.normalizeToken_serverSegment]
    rw [isShown_iff tool hthere, letsPass_iff tool hasks, hserver, or_self]

/-! ## Other names are not -/

/-- A call of an agent that nothing but the lists restricts. -/
def plainCall (allowlist : SkillMcpAllowlist) : PolicyCall where
  getAgentCapabilityBinding _ := none
  riskLevel := none
  ctx :=
    { agentId := some (ofString "agent")
      capabilityPolicy := none
      permissionProfile := some
        { profileId := ofString "profile"
          riskCeiling := .dangerous
          approvalRequiredFrom := .dangerous
          allowExternalNetwork := true
          allowFilesystemWrite := true
          allowShellExecution := true
          allowScreenControl := true }
      skillMcpAllowlist := some allowlist
      delegationDepth := none
      depthScopedToolPolicy := none
      capabilityBindingId := none
      secretScopeId := some (ofString "scope")
      parentSecretScopeId := none
      allowParentSecretFallback := false
      fallbackSecretScopeAllowlist := none
      auditId := some (ofString "audit") }

/-- The lists of a server and a tool. -/
def onlyLists (server toolName : JsString) : SkillMcpAllowlist := ⟨[server], [toolName], [], none⟩

theorem plainCall_asksLists (host : CaseHost) (server entry toolName : JsString) :
    (plainCall (onlyLists server entry)).AsksLists host (onlyLists server entry) toolName where
  agent := by
    change isBlank (some (ofString "agent")) = false
    decide
  profile := rfl
  lists := rfl
  before := by
    have hdepth : evaluateDepthScopedToolPolicy host toolName none none := rfl
    have hbinding : resolveAgentBindingDecision host (fun _ => none) toolName
        (ofString "agent") none (parseMcpRegisteredToolName toolName) = .ok none := rfl
    have hscope : isBlank (some (ofString "scope")) = false := by decide
    have haudit : isBlank (some (ofString "audit")) = false := by decide
    have hfilled : isFilled none = false := rfl
    unfold denialBeforeLists plainCall
    rw [hdepth, Option.getD_some, hbinding]
    dsimp only
    rw [Option.some_or, Option.some_or, hscope, haudit, hfilled]
    simp only [ToolContext.policyAllowlist, onlyLists, Option.map_some, Option.map_none,
      Option.none_or, Option.getD_some, normalizeSkillMcpAllowlist, nonEmpty, Bool.not_true,
      Bool.false_eq_true, if_false, Bool.false_and, Bool.and_false, Option.map_none, ite_self,
      hfilled]

section Exact

variable {host : TokenHost} {text : JsString}

/-- The set of one entry that is a token. -/
theorem makeSet_singleton (htext : ∀ unit ∈ text, isTokenUnit unit) (hfilled : text ≠ []) :
    makeSet host (normalizeStringList [text]) = [text] := by
  have htrim : trim text = text :=
    trim_of_forall fun unit hunit => isSpace_of_isTokenUnit (htext unit hunit)
  have hfilter : [text].filter (fun value => value ≠ []) = [text] :=
    filter_eq_self.mpr fun value hvalue => by
      rw [mem_singleton.mp hvalue]
      exact decide_eq_true hfilled
  have hlist : normalizeStringList [text] = [text] := by
    rw [normalizeStringList, map_singleton, htrim, hfilter]
    exact OrderedSet.elements_ofList (nodup_singleton text)
  rw [hlist, makeSet, map_singleton, normalizeToken_of_token host htext, hfilter]

variable {tools : List McpTool} (h : AllowlistMeansWhatItLists host tools)
  {tool : McpTool} (htool : tool ∈ tools)

theorem McpTool.token_of_mem_namesOf (host : TokenHost) (tool : McpTool)
    (hname : name ∈ namesOf host (tool.registeredName host)
      (parseMcpRegisteredToolName (tool.registeredName host))) :
    (∀ unit ∈ name, isTokenUnit unit) ∧ name ≠ [] := by
  rw [McpTool.mem_namesOf] at hname
  obtain rfl | rfl | rfl := hname
  · exact ⟨fun _ => (tool.isSegment_tool host).token, (tool.isSegment_tool host).filled⟩
  · refine ⟨fun _ => tool.token_of_mem_segmentPair host, fun hnil => ?_⟩
    cases hnil ▸ tool.colon_mem_segmentPair host
  · refine ⟨fun _ => tool.token_of_mem_registeredName host, fun hnil => ?_⟩
    rw [tool.registeredName_eq] at hnil
    exact absurd (hnil ▸ not_isChain_registeredNameOf _ _) (not_not_intro isChain_nil)

section

variable (hname : name ∈ namesOf host (tool.registeredName host) (parseMcpRegisteredToolName
  (tool.registeredName host)))
include hname

/-- The lists of the server's segment and one name of the bridge. -/
theorem onlyLists_sets :
    enabledServers host (onlyLists (tool.serverSegment host) name) = [tool.serverSegment host] ∧
      enabledTools host (onlyLists (tool.serverSegment host) name) = [name] := by
  obtain ⟨htoken, hfilled⟩ := tool.token_of_mem_namesOf host hname
  exact ⟨makeSet_singleton (fun _ => (tool.isSegment_server host).token)
    (tool.isSegment_server host).filled, makeSet_singleton htoken hfilled⟩

theorem restricts_onlyLists :
    Restricts host (onlyLists (tool.serverSegment host) name) := by
  obtain ⟨hservers, htools⟩ := onlyLists_sets hname
  exact ⟨by rw [hservers]; exact cons_ne_nil _ _, by rw [htools]; exact cons_ne_nil _ _⟩

theorem passesToolCheck_onlyLists :
    passesToolCheck host (onlyLists (tool.serverSegment host) name) (tool.registeredName host) := by
  rw [passesToolCheck, isToolAllowed_iff (restricts_onlyLists hname).tools,
    (onlyLists_sets hname).2]
  exact ⟨⟨name, hname, mem_singleton_self name⟩, fun _ _ => not_mem_nil⟩

end

include h htool

/-- A name of the bridge has to be what one of its entries becomes. -/
theorem AllowlistMeansWhatItLists.mem_aliases
    (hname : name ∈ namesOf host (tool.registeredName host)
      (parseMcpRegisteredToolName (tool.registeredName host))) :
    normalizeToken host tool.serverName = tool.serverSegment host ∧ name ∈ tool.aliases host := by
  obtain ⟨hservers, htools⟩ := onlyLists_sets hname
  have hasks := plainCall_asksLists host (tool.serverSegment host) name (tool.registeredName host)
  have hserver : isMcpServerAllowed host (tool.serverSegment host)
      (onlyLists (tool.serverSegment host) name) := by
    rw [isMcpServerAllowed_iff (restricts_onlyLists hname).servers, hservers,
      tool.normalizeToken_serverSegment]
    exact mem_singleton_self _
  have hlisted := (h.gate tool htool _ (restricts_onlyLists hname) _ hasks).mp
    ((letsPass_iff tool hasks).mpr ⟨hserver, passesToolCheck_onlyLists hname⟩)
  refine ⟨mem_singleton.mp (hservers ▸ hlisted.server), ?_⟩
  obtain ⟨found, hfound, henabled⟩ := hlisted.enabled
  rw [htools, mem_singleton] at henabled
  exact henabled ▸ hfound

theorem AllowlistMeansWhatItLists.plainTool :
    normalizeToken host tool.toolName = tool.toolSegment host := by
  obtain ⟨-, hmem⟩ := h.mem_aliases htool ((tool.mem_namesOf host).mpr (Or.inl rfl))
  rw [McpTool.aliases, McpTool.qualifiedEntries, map_cons, map_cons, map_singleton,
    mem_cons, mem_cons, mem_singleton] at hmem
  obtain hsame | hpair | hregistered := hmem
  · exact hsame.symm
  · have hcolon : colon ∈ tool.serverName ++ colon :: tool.toolName := mem_append_cons_self
    have hmem := colon_mem_normalizeToken host hcolon
    rw [← hpair] at hmem
    exact absurd hmem (tool.isSegment_tool host).colon_not_mem
  · rw [tool.normalizeToken_registeredName] at hregistered
    exact absurd hregistered (tool.toolSegment_ne_registeredName host tool)

theorem AllowlistMeansWhatItLists.plainPair :
    normalizeToken host (tool.serverName ++ colon :: tool.toolName) = tool.segmentPair host := by
  obtain ⟨-, hmem⟩ := h.mem_aliases htool ((tool.mem_namesOf host).mpr (Or.inr (Or.inl rfl)))
  rw [McpTool.aliases, McpTool.qualifiedEntries, map_cons, map_cons, map_singleton,
    mem_cons, mem_cons, mem_singleton] at hmem
  obtain htoken | hsame | hregistered := hmem
  · rw [h.plainTool htool] at htoken
    exact absurd htoken.symm (tool.toolSegment_ne_segmentPair host tool)
  · exact hsame.symm
  · rw [tool.normalizeToken_registeredName] at hregistered
    exact absurd hregistered.symm (tool.registeredName_ne_segmentPair host tool)

end Exact

theorem AllowlistMeansWhatItLists.plainNames (h : AllowlistMeansWhatItLists host tools) :
    PlainNames host tools where
  server tool htool := (h.mem_aliases htool ((tool.mem_namesOf host).mpr (Or.inl rfl))).1
  tool tool htool := h.plainTool htool
  pair tool htool := h.plainPair htool
  distinct tool htool other hother hserver hsegment := by
    by_contra hne
    have hsame : other.registeredName host = tool.registeredName host := by
      rw [other.registeredName_eq, tool.registeredName_eq, hserver, hsegment]
    have hname := (tool.mem_namesOf host).mpr (Or.inr (Or.inr rfl))
    have hdenied := (h.qualified tool htool _ (restricts_onlyLists hname) (fun entry hentry => by
      rw [mem_singleton.mp hentry]
      exact mem_cons_of_mem _ (mem_singleton_self _))).1 other hother fun h => hne h.symm
    rw [hsame, passesToolCheck_onlyLists hname] at hdenied
    cases hdenied
  named tool htool other hother hsegment := by
    by_contra hne
    have htoken := normalizeToken_of_token host fun _ => (tool.isSegment_tool host).token
    refine h.unshared tool htool other hother hne (tool.toolSegment host) ⟨?_, ?_⟩
    · rw [EntryEnables, htoken]
      exact (tool.mem_namesOf host).mpr (Or.inl rfl)
    · rw [EntryEnables, htoken]
      exact (other.mem_namesOf host).mpr (Or.inl hsegment)

/-- Allowlists mean what they list exactly for tools with plain names. -/
theorem allowlistMeansWhatItLists_iff (host : TokenHost) (tools : List McpTool) :
    AllowlistMeansWhatItLists host.toCaseHost tools ↔ PlainNames host.toCaseHost tools :=
  ⟨AllowlistMeansWhatItLists.plainNames, PlainNames.means⟩

/-- The lower case of the basic alphabet changes no token. -/
def asciiTokens : TokenHost where
  toCaseHost := asciiCase
  toLowerCase_of_token text htext := by
    refine (List.map_congr_left fun unit hunit => ?_).trans (List.map_id text)
    have htoken := htext unit hunit
    have hcolon : colon.val = 58 := by decide
    have hunderscore : underscore.val = 95 := by decide
    have hhyphen : hyphen.val = 45 := by decide
    unfold isTokenUnit isLetterOrDigit at htoken
    simp only [Bool.or_eq_true, Bool.and_eq_true, decide_eq_true_eq, Fin.ext_iff, hcolon,
      hunderscore, hhyphen] at htoken
    exact if_neg (by omega)
  colon_mem_toLowerCase text hcolon := List.mem_map.mpr ⟨colon, hcolon, by decide⟩

/-- The server `my-server` is listed by its name, and its tool is denied for its server. -/
theorem hyphenServer_denied : ¬ AllowlistMeansWhatItLists asciiTokens.toCaseHost
    [⟨ofString "my-server", ofString "read"⟩] := by
  intro h
  have hlists : Restricts asciiTokens.toCaseHost
      (onlyLists (ofString "my-server") (ofString "read")) :=
    ⟨by decide +kernel, by decide +kernel⟩
  have hlisted : Listed asciiTokens.toCaseHost (onlyLists (ofString "my-server") (ofString "read"))
      ⟨ofString "my-server", ofString "read"⟩ :=
    ⟨by decide +kernel, ⟨ofString "read", by decide +kernel, by decide +kernel⟩, by decide +kernel⟩
  have hpass := (h.gate _ (mem_singleton_self _) _ hlists _
    (plainCall_asksLists _ _ _ _)).mpr hlisted
  exact hpass.1 (by decide +kernel)

end Nobie.Security
