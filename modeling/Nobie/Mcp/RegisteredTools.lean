/-
# The registered tools are the listed ones

The dispatcher, the names that an entry remembers and the tools of its status are kept in step
exactly as long as the sanitizer leaves the names of the live servers' tools apart. Where it makes
one name of two, the second bridge stands where the first should, and the exit of either server
takes it out.
-/

import Mathlib.Data.List.Perm.Subperm
import Nobie.Foundation.Transition
import Nobie.Mcp.Registry

namespace Nobie.Mcp

open Foundation List JsString OrderedMap

/-! ## What is registered -/

/-- The tool of a dispatcher is a bridge to a server. -/
def isBridgeOf (serverName : JsString) : AgentTool → Bool
  | .bridge name _ _ => name = serverName
  | .other => false

/-- The names under which there are bridges to a server. -/
def bridgeNames (state : RegistryState) (serverName : JsString) : List JsString :=
  (state.tools.entries.filter fun entry => isBridgeOf serverName entry.2).map Prod.fst

/-- Every listed tool of a ready server is registered with the bridge that calls it, and counted;
every bridge is that of a ready server; and the exit of a server takes no other tool out. -/
structure ToolsRegistered (state : RegistryState) : Prop where
  listed : ∀ name entry, state.entries.get? name = some entry → entry.status.ready →
    ∀ tool ∈ entry.status.tools, ∃ description,
      state.tools.get? tool.registeredName = some (.bridge name tool.name description)
  counted : ∀ name entry, state.entries.get? name = some entry → entry.status.ready →
    entry.status.registeredToolCount = (bridgeNames state name).length
  live : ∀ registeredName serverName toolName description,
    state.tools.get? registeredName = some (.bridge serverName toolName description) →
      ∃ entry, state.entries.get? serverName = some entry ∧ entry.status.ready
  apart : ∀ name error registeredName tool, state.tools.get? registeredName = some tool →
    isBridgeOf name tool = false → (state.onExit name error).tools.get? registeredName = some tool

/-! ## What the registry always knows -/

/-- What each entry says of itself, and where the bridges are remembered. -/
structure RegistryBooks (host : CaseHost) (state : RegistryState) : Prop where
  ready : ∀ name entry, state.entries.get? name = some entry → entry.status.ready →
    entry.toolNames = entry.status.tools.map McpToolStatus.registeredName ∧
      entry.status.registeredToolCount = entry.status.tools.length
  idle : ∀ name entry, state.entries.get? name = some entry → entry.status.ready = false →
    entry.toolNames = []
  owned : ∀ registeredName serverName toolName description,
    state.tools.get? registeredName = some (.bridge serverName toolName description) →
      ∃ entry, state.entries.get? serverName = some entry ∧ registeredName ∈ entry.toolNames
  fresh : (state.toLoad.map Prod.fst).Nodup ∧
    ∀ name ∈ state.toLoad.map Prod.fst, state.entries.get? name = none

/-- Every listed tool of a ready server has its name for itself. -/
def OwnNames (state : RegistryState) : Prop :=
  ∀ name entry, state.entries.get? name = some entry → entry.status.ready →
    entry.toolNames.Nodup ∧ ∀ tool ∈ entry.status.tools, ∃ description,
      state.tools.get? tool.registeredName = some (.bridge name tool.name description)

/-- Every bridge is of a ready server that lists it. -/
def BridgesLive (state : RegistryState) : Prop :=
  ∀ registeredName serverName toolName description,
    state.tools.get? registeredName = some (.bridge serverName toolName description) →
      ∃ entry, state.entries.get? serverName = some entry ∧ entry.status.ready ∧
        ∃ tool ∈ entry.status.tools, tool.registeredName = registeredName

variable {registeredName : JsString} {entry : RegistryEntry} {error : JsString}

variable {state : RegistryState} {serverName : JsString} {A : Type} {name : JsString}
  {tool : AgentTool} {config : McpServerConfig} {rest : List (JsString × McpServerConfig)}

theorem mem_bridgeNames :
    registeredName ∈ bridgeNames state serverName ↔ ∃ toolName description,
      state.tools.get? registeredName = some (.bridge serverName toolName description) := by
  unfold bridgeNames
  rw [mem_map]
  constructor
  · rintro ⟨⟨name, tool⟩, hentry, rfl⟩
    obtain ⟨hmem, hbridge⟩ := mem_filter.mp hentry
    have hget := get?_of_mem_entries hmem
    cases tool with
    | other => cases hbridge
    | bridge server toolName description =>
      obtain rfl := of_decide_eq_true hbridge
      exact ⟨toolName, description, hget⟩
  · rintro ⟨toolName, description, hget⟩
    exact ⟨_, mem_filter.mpr ⟨mem_entries_of_get? hget, decide_eq_true rfl⟩, rfl⟩

theorem nodup_bridgeNames (state : RegistryState) (serverName : JsString) :
    (bridgeNames state serverName).Nodup :=
  state.tools.nodup.sublist (filter_sublist.map Prod.fst)

variable {first second : List A}

/-- A list is without repetition where it is as long as one without that has the same members. -/
theorem nodup_of_same_members (hnodup : first.Nodup) (hmem : ∀ item, item ∈ first ↔ item ∈ second)
    (hlength : first.length = second.length) : second.Nodup := by
  have hsubperm : first.Subperm second :=
    subperm_of_subset hnodup fun item hitem => (hmem item).mp hitem
  exact (hsubperm.perm_of_length_le hlength.ge).nodup_iff.mp hnodup

theorem length_eq_of_same_members (hfirst : first.Nodup) (hsecond : second.Nodup)
    (hmem : ∀ item, item ∈ first ↔ item ∈ second) : first.length = second.length :=
  ((perm_ext_iff_of_nodup hfirst hsecond).mpr hmem).length_eq

section Books

variable {host : CaseHost} {state : RegistryState}

/-- Where the listed tools are registered, the bridges to a ready server are under the names that
its entry remembers. -/
theorem RegistryBooks.mem_bridgeNames_iff (h : RegistryBooks host state)
    (hentry : state.entries.get? name = some entry) (hready : entry.status.ready)
    (hlisted : ∀ tool ∈ entry.status.tools, ∃ description,
      state.tools.get? tool.registeredName = some (.bridge name tool.name description))
    (registeredName : JsString) :
    registeredName ∈ bridgeNames state name ↔ registeredName ∈ entry.toolNames := by
  rw [mem_bridgeNames]
  constructor
  · rintro ⟨toolName, description, hget⟩
    obtain ⟨found, hfound, hmem⟩ := h.owned registeredName name toolName description hget
    cases hentry.symm.trans hfound
    exact hmem
  · intro hmem
    rw [(h.ready name entry hentry hready).1] at hmem
    obtain ⟨tool, htool, rfl⟩ := mem_map.mp hmem
    obtain ⟨description, hget⟩ := hlisted tool htool
    exact ⟨tool.name, description, hget⟩

theorem RegistryBooks.live (h : RegistryBooks host state) : BridgesLive state := by
  intro registeredName serverName toolName description hget
  obtain ⟨entry, hentry, hmem⟩ := h.owned registeredName serverName toolName description hget
  cases hready : entry.status.ready with
  | false =>
    rw [h.idle serverName entry hentry hready] at hmem
    cases hmem
  | true =>
    rw [(h.ready serverName entry hentry hready).1] at hmem
    exact ⟨entry, hentry, hready, mem_map.mp hmem⟩

theorem tools_onExit_of_not_mem (hentry : state.entries.get? name = some entry)
    (hname : registeredName ∉ entry.toolNames) :
    (state.onExit name error).tools.get? registeredName = state.tools.get? registeredName := by
  unfold RegistryState.onExit
  rw [hentry]
  exact (get?_foldl_erase entry.toolNames state.tools registeredName).trans (if_neg hname)

/-- The tools are registered exactly where each has its name for itself. -/
theorem RegistryBooks.toolsRegistered_iff_ownNames (h : RegistryBooks host state) :
    ToolsRegistered state ↔ OwnNames state := by
  constructor
  · intro hregistered name entry hentry hready
    have hlisted := hregistered.listed name entry hentry hready
    obtain ⟨hnames, hcount⟩ := h.ready name entry hentry hready
    refine ⟨nodup_of_same_members (nodup_bridgeNames state name)
      (h.mem_bridgeNames_iff hentry hready hlisted) ?_, hlisted⟩
    rw [← hregistered.counted name entry hentry hready, hcount, hnames, length_map]
  · intro hown
    refine ⟨fun name entry hentry hready => (hown name entry hentry hready).2,
      fun name entry hentry hready => ?_,
      fun registeredName serverName toolName description hget => ?_,
      fun name error registeredName tool hget hother => ?_⟩
    · obtain ⟨hnodup, hlisted⟩ := hown name entry hentry hready
      obtain ⟨hnames, hcount⟩ := h.ready name entry hentry hready
      rw [hcount, length_eq_of_same_members (nodup_bridgeNames state name) hnodup
        (h.mem_bridgeNames_iff hentry hready hlisted), hnames, length_map]
    · obtain ⟨entry, hentry, hready, -⟩ := h.live _ _ _ _ hget
      exact ⟨entry, hentry, hready⟩
    · cases hentry : state.entries.get? name with
      | none =>
        unfold RegistryState.onExit
        rw [hentry]
        exact hget
      | some entry =>
        rw [tools_onExit_of_not_mem hentry, hget]
        intro hmem
        cases hready : entry.status.ready with
        | false =>
          rw [h.idle name entry hentry hready] at hmem
          cases hmem
        | true =>
          obtain ⟨-, hlisted⟩ := hown name entry hentry hready
          obtain ⟨toolName, description, hbridge⟩ := mem_bridgeNames.mp
            ((h.mem_bridgeNames_iff hentry hready hlisted registeredName).mpr hmem)
          cases hget.symm.trans hbridge
          cases hother.symm.trans (decide_eq_true rfl)

/-! ## Servers that go -/

theorem tools_unregisterAll (entries : List (JsString × RegistryEntry)) (state : RegistryState) :
    (entries.foldl (fun closed entry => closed.unregisterTools entry.2.toolNames) state).tools =
      (entries.flatMap fun entry => entry.2.toolNames).foldl OrderedMap.erase state.tools := by
  induction entries generalizing state with
  | nil => rfl
  | cons entry rest ih =>
    rw [foldl_cons, ih, flatMap_cons, foldl_append]
    rfl

/-- Where the registry is closed no bridge stays. -/
theorem RegistryBooks.no_bridge_of_closeAll (h : RegistryBooks host state)
    {toolName description : JsString} :
    state.closeAll.tools.get? registeredName ≠ some (.bridge serverName toolName description) := by
  intro hget
  have hclosed : state.closeAll.tools = (state.entries.entries.flatMap fun entry =>
      entry.2.toolNames).foldl OrderedMap.erase state.tools := tools_unregisterAll _ state
  rw [hclosed] at hget
  have hnot : registeredName ∉ state.entries.entries.flatMap fun entry => entry.2.toolNames := by
    intro hmem
    have hnone := (get?_foldl_erase _ state.tools registeredName).trans (if_pos hmem)
    cases hget.symm.trans hnone
  have hbefore := (get?_foldl_erase _ state.tools registeredName).symm.trans hget
  rw [if_neg hnot] at hbefore
  obtain ⟨entry, hentry, hmem⟩ := h.owned registeredName serverName toolName description hbefore
  exact hnot (mem_flatMap.mpr ⟨_, mem_entries_of_get? hentry, hmem⟩)

/-- The registry behind a close, with servers to come to. -/
theorem RegistryBooks.closeAll (h : RegistryBooks host state)
    (servers : OrderedMap JsString McpServerConfig) :
    RegistryBooks host { state.closeAll with toLoad := servers.entries } :=
  ⟨fun _ _ hentry => absurd hentry (Option.some_ne_none _).symm,
    fun _ _ hentry => absurd hentry (Option.some_ne_none _).symm,
    fun _ _ _ _ hget => absurd hget h.no_bridge_of_closeAll,
    servers.nodup, fun _ _ => rfl⟩

theorem ownNames_of_no_entries (hnone : ∀ name, state.entries.get? name = none) : OwnNames state :=
  fun name _ hentry _ => absurd (hentry.symm.trans (hnone name)) (Option.some_ne_none _)

/-- The entry of a server that has exited. -/
def exitedEntry (entry : RegistryEntry) (error : JsString) : RegistryEntry :=
  { entry with
    toolNames := []
    status := { entry.status with ready := false, registeredToolCount := 0, error := some error } }

theorem entries_onExit (hentry : state.entries.get? name = some entry) :
    (state.onExit name error).entries = state.entries.set name (exitedEntry entry error) := by
  unfold RegistryState.onExit
  rw [hentry]
  rfl

theorem toLoad_onExit (name error : JsString) : (state.onExit name error).toLoad = state.toLoad := by
  unfold RegistryState.onExit
  cases state.entries.get? name <;> rfl

theorem tools_onExit_of_some (hentry : state.entries.get? name = some entry)
    (hget : (state.onExit name error).tools.get? registeredName = some tool) :
    registeredName ∉ entry.toolNames ∧ state.tools.get? registeredName = some tool := by
  have hnot : registeredName ∉ entry.toolNames := by
    intro hmem
    unfold RegistryState.onExit at hget
    rw [hentry] at hget
    have hnone := (get?_foldl_erase entry.toolNames state.tools registeredName).trans (if_pos hmem)
    exact Option.some_ne_none tool (hget.symm.trans hnone)
  rw [tools_onExit_of_not_mem hentry hnot] at hget
  exact ⟨hnot, hget⟩

/-- What stands under another key when an entry is set. -/
theorem get?_of_set {entries : OrderedMap JsString RegistryEntry} {other : JsString}
    {found : RegistryEntry} (h : (entries.set name entry).get? other = some found) :
    (other = name ∧ found = entry) ∨ (other ≠ name ∧ entries.get? other = some found) := by
  rw [get?_set] at h
  split at h
  · next heq => exact .inl ⟨heq.symm, (Option.some.inj h).symm⟩
  · next hne => exact .inr ⟨Ne.symm hne, h⟩

theorem RegistryBooks.onExit (h : RegistryBooks host state) (error : JsString)
    (hentry : state.entries.get? name = some entry) :
    RegistryBooks host (state.onExit name error) := by
  refine ⟨fun other found hfound hready => ?_, fun other found hfound hidle => ?_,
    fun registeredName serverName toolName description hget => ?_, ?_, fun other hother => ?_⟩
  · rw [entries_onExit hentry] at hfound
    rcases get?_of_set hfound with ⟨-, rfl⟩ | ⟨-, hbefore⟩
    · cases hready
    · exact h.ready other found hbefore hready
  · rw [entries_onExit hentry] at hfound
    rcases get?_of_set hfound with ⟨-, rfl⟩ | ⟨-, hbefore⟩
    · rfl
    · exact h.idle other found hbefore hidle
  · obtain ⟨hnot, hbefore⟩ := tools_onExit_of_some hentry hget
    obtain ⟨found, hfound, hmem⟩ := h.owned registeredName serverName toolName description hbefore
    have hne : serverName ≠ name := by
      rintro rfl
      cases hentry.symm.trans hfound
      exact hnot hmem
    refine ⟨found, ?_, hmem⟩
    rw [entries_onExit hentry, get?_set_of_ne _ _ hne.symm, hfound]
  · rw [toLoad_onExit]
    exact h.fresh.1
  · rw [toLoad_onExit] at hother
    have hnone := h.fresh.2 other hother
    have hne : name ≠ other := by
      rintro rfl
      exact Option.some_ne_none entry (hentry.symm.trans hnone)
    rw [entries_onExit hentry, get?_set_of_ne _ _ hne, hnone]

theorem ownNames_onExit (h : RegistryBooks host state) (hown : OwnNames state) (error : JsString)
    (hentry : state.entries.get? name = some entry) : OwnNames (state.onExit name error) := by
  intro other found hfound hready
  rw [entries_onExit hentry] at hfound
  rcases get?_of_set hfound with ⟨-, rfl⟩ | ⟨hne, hbefore⟩
  · cases hready
  · obtain ⟨hnodup, hlisted⟩ := hown other found hbefore hready
    refine ⟨hnodup, fun tool htool => ?_⟩
    obtain ⟨description, hget⟩ := hlisted tool htool
    refine ⟨description, ?_⟩
    rw [tools_onExit_of_not_mem hentry, hget]
    intro hmem
    cases hentryReady : entry.status.ready with
    | false =>
      rw [h.idle name entry hentry hentryReady] at hmem
      cases hmem
    | true =>
      obtain ⟨-, hothers⟩ := hown name entry hentry hentryReady
      obtain ⟨toolName, described, hbridge⟩ := mem_bridgeNames.mp
        ((h.mem_bridgeNames_iff hentry hentryReady hothers tool.registeredName).mpr hmem)
      have hsame := Option.some.inj (hget.symm.trans hbridge)
      exact hne (AgentTool.bridge.inj hsame).1

/-! ## Servers that come -/

/-- The registered names of a server's tools. -/
def registeredNames (host : CaseHost) (serverName : JsString)
    (discovered : List McpDiscoveredTool) : List JsString :=
  discovered.map fun tool => toRegisteredToolName host serverName tool.name

theorem toolNames_readyEntry (name : JsString) (config : McpServerConfig)
    (discovered : List McpDiscoveredTool) :
    (RegistryState.readyEntry host name config discovered).toolNames =
      registeredNames host name discovered := by
  unfold RegistryState.readyEntry RegistryState.registeredStatuses registeredNames
  dsimp only
  rw [map_map]
  rfl

section

variable (h : RegistryBooks host state) (hload : state.toLoad = (name, config) :: rest)
include h hload

/-- The servers that are still to come after the first one. -/
theorem RegistryBooks.fresh_rest (entry : RegistryEntry) :
    state.entries.get? name = none ∧ (rest.map Prod.fst).Nodup ∧
      ∀ other ∈ rest.map Prod.fst, (state.entries.set name entry).get? other = none := by
  obtain ⟨hnodup, hnone⟩ := h.fresh
  rw [hload, map_cons] at hnodup hnone
  obtain ⟨hname, hrest⟩ := nodup_cons.mp hnodup
  refine ⟨hnone name mem_cons_self, hrest, fun other hother => ?_⟩
  have hne : name ≠ other := by
    rintro rfl
    exact hname hother
  rw [get?_set_of_ne _ _ hne, hnone other (mem_cons_of_mem _ hother)]

/-- A server that is not started or fails leaves all as it is. -/
theorem RegistryBooks.setIdle (hidle : entry.status.ready = false)
    (hnames : entry.toolNames = []) :
    RegistryBooks host { state.setEntry name entry with toLoad := rest } ∧
      (OwnNames { state.setEntry name entry with toLoad := rest } ↔ OwnNames state) := by
  obtain ⟨hnone, hrest, hothers⟩ := h.fresh_rest hload entry
  have hkeeps {other : JsString} {found : RegistryEntry}
      (hfound : state.entries.get? other = some found) :
      (state.entries.set name entry).get? other = some found := by
    have hne : name ≠ other := by
      rintro rfl
      exact Option.some_ne_none found (hfound.symm.trans hnone)
    rw [get?_set_of_ne _ _ hne, hfound]
  refine ⟨⟨fun other found hfound hready => ?_, fun other found hfound hquiet => ?_,
    fun registeredName serverName toolName description hget => ?_, hrest, hothers⟩,
    ⟨fun hown other found hfound hready => hown other found (hkeeps hfound) hready,
      fun hown other found hfound hready => ?_⟩⟩
  · rcases get?_of_set hfound with ⟨-, rfl⟩ | ⟨-, hbefore⟩
    · cases hidle.symm.trans hready
    · exact h.ready other found hbefore hready
  · rcases get?_of_set hfound with ⟨-, rfl⟩ | ⟨-, hbefore⟩
    · exact hnames
    · exact h.idle other found hbefore hquiet
  · obtain ⟨found, hfound, hmem⟩ := h.owned registeredName serverName toolName description hget
    exact ⟨found, hkeeps hfound, hmem⟩
  · rcases get?_of_set hfound with ⟨-, rfl⟩ | ⟨-, hbefore⟩
    · cases hidle.symm.trans hready
    · exact hown other found hbefore hready

end

section Registering

variable {name : JsString} {discovered : List McpDiscoveredTool}

theorem tools_registerTools_of_not_mem (h : registeredName ∉ registeredNames host name discovered) :
    (RegistryState.registerTools host name discovered state).tools.get? registeredName =
      state.tools.get? registeredName := by
  unfold RegistryState.registerTools
  rw [get?_foldl_set (fun tool : McpDiscoveredTool =>
    toRegisteredToolName host name tool.name), find?_eq_none.mpr, Option.map_none,
    Option.none_or]
  intro tool htool hsame
  exact h (mem_map.mpr ⟨tool, mem_reverse.mp htool, of_decide_eq_true hsame⟩)

theorem tools_registerTools_of_mem {registeredName : JsString}
    (h : registeredName ∈ registeredNames host name discovered) :
    ∃ tool ∈ discovered, (RegistryState.registerTools host name discovered
      state).tools.get? registeredName = some (RegistryState.bridgeFor name tool) := by
  obtain ⟨some, hsome, hname⟩ := mem_map.mp h
  cases hfind : discovered.reverse.find? (fun tool =>
      decide (toRegisteredToolName host name tool.name = registeredName)) with
  | none =>
    have hnot := find?_eq_none.mp hfind some (mem_reverse.mpr hsome)
    exact absurd (decide_eq_true hname) hnot
  | some tool =>
    refine ⟨tool, mem_reverse.mp (mem_of_find?_eq_some hfind), ?_⟩
    unfold RegistryState.registerTools
    rw [get?_foldl_set (fun tool : McpDiscoveredTool =>
      toRegisteredToolName host name tool.name), hfind]
    rfl

theorem tools_registerTools_of_nodup (h : (registeredNames host name discovered).Nodup)
    {tool : McpDiscoveredTool} (htool : tool ∈ discovered) :
    (RegistryState.registerTools host name discovered state).tools.get?
      (toRegisteredToolName host name tool.name) = some (RegistryState.bridgeFor name tool) :=
  get?_foldl_set_of_mem (fun tool : McpDiscoveredTool =>
    toRegisteredToolName host name tool.name) _ state.tools h htool

variable {config : McpServerConfig} {rest : List (JsString × McpServerConfig)}

/-- No name of a server that comes is that of a live server's tool. -/
def ApartFromLive (host : CaseHost) (state : RegistryState) (name : JsString)
    (discovered : List McpDiscoveredTool) : Prop :=
  ∀ other entry, state.entries.get? other = some entry → entry.status.ready →
    ∀ tool ∈ entry.status.tools, tool.registeredName ∉ registeredNames host name discovered

theorem RegistryBooks.setReady (h : RegistryBooks host state)
    (hload : state.toLoad = (name, config) :: rest) :
    RegistryBooks host { (RegistryState.registerTools host name discovered state).setEntry name
      (RegistryState.readyEntry host name config discovered) with toLoad := rest } := by
  obtain ⟨hnone, hrest, hothers⟩ := h.fresh_rest hload
    (RegistryState.readyEntry host name config discovered)
  refine ⟨fun other found hfound hready => ?_, fun other found hfound hidle => ?_,
    fun registeredName serverName toolName description hget => ?_, hrest, hothers⟩
  · rcases get?_of_set hfound with ⟨-, rfl⟩ | ⟨-, hbefore⟩
    · exact ⟨rfl, rfl⟩
    · exact h.ready other found hbefore hready
  · rcases get?_of_set hfound with ⟨-, rfl⟩ | ⟨-, hbefore⟩
    · cases hidle
    · exact h.idle other found hbefore hidle
  · by_cases hname : registeredName ∈ registeredNames host name discovered
    · obtain ⟨tool, -, hbridge⟩ := @tools_registerTools_of_mem host state name discovered _ hname
      obtain ⟨rfl, -⟩ := AgentTool.bridge.inj (Option.some.inj (hbridge.symm.trans hget))
      exact ⟨_, get?_set_self _ _ _, by rwa [toolNames_readyEntry]⟩
    · have hbefore := (tools_registerTools_of_not_mem hname).symm.trans hget
      obtain ⟨found, hfound, hmem⟩ := h.owned registeredName serverName toolName description hbefore
      have hne : name ≠ serverName := by
        rintro rfl
        exact Option.some_ne_none found (hfound.symm.trans hnone)
      exact ⟨found, (get?_set_of_ne _ _ hne).trans hfound, hmem⟩

/-- The names stay their owners' exactly where the server that comes has names for itself. -/
theorem ownNames_setReady_iff (h : RegistryBooks host state) (hown : OwnNames state)
    (hload : state.toLoad = (name, config) :: rest) :
    OwnNames { (RegistryState.registerTools host name discovered state).setEntry name
        (RegistryState.readyEntry host name config discovered) with toLoad := rest } ↔
      (registeredNames host name discovered).Nodup ∧ ApartFromLive host state name discovered := by
  obtain ⟨hnone, -, -⟩ := h.fresh_rest hload (RegistryState.readyEntry host name config discovered)
  constructor
  · intro hnext
    refine ⟨?_, fun other entry hentry hready tool htool hmem => ?_⟩
    · rw [← toolNames_readyEntry name config discovered]
      exact (hnext name _ (get?_set_self _ _ _) rfl).1
    · have hne : name ≠ other := by
        rintro rfl
        exact Option.some_ne_none entry (hentry.symm.trans hnone)
      obtain ⟨description, hget⟩ := (hnext other entry
        ((get?_set_of_ne _ _ hne).trans hentry) hready).2 tool htool
      obtain ⟨taken, -, hbridge⟩ := @tools_registerTools_of_mem host state name discovered _ hmem
      exact hne (AgentTool.bridge.inj (Option.some.inj (hbridge.symm.trans hget))).1
  · rintro ⟨hnodup, hapart⟩ other found hfound hready
    rcases get?_of_set hfound with ⟨rfl, rfl⟩ | ⟨-, hbefore⟩
    · refine ⟨by rwa [toolNames_readyEntry], fun status hstatus => ?_⟩
      obtain ⟨tool, htool, rfl⟩ := mem_map.mp hstatus
      exact ⟨_, tools_registerTools_of_nodup hnodup htool⟩
    · obtain ⟨hnames, hlisted⟩ := hown other found hbefore hready
      refine ⟨hnames, fun tool htool => ?_⟩
      obtain ⟨description, hget⟩ := hlisted tool htool
      exact ⟨description, (tools_registerTools_of_not_mem
        (hapart other found hbefore hready tool htool)).trans hget⟩

end Registering

end Books

/-! ## Runs -/

/-- Where a server is loaded and lists its tools, their registered names are distinct, and none is
that of a tool of a live server. -/
def LoadsOwnNames (host : CaseHost) (state : RegistryState) : RegistryStep → Prop
  | .loadNext (.listed reported) =>
    ∀ name config rest, state.toLoad = (name, config) :: rest →
      RegistryState.startError config = none →
        (registeredNames host name (filterTools (listTools reported) config)).Nodup ∧
          ApartFromLive host state name (filterTools (listTools reported) config)
  | _ => True

theorem registry_step {host : CaseHost} {next : RegistryState} {step : RegistryStep}
    (h : RegistryBooks host state) (hnext : registryStep? host state step = some next) :
    RegistryBooks host next ∧
      (OwnNames state → (OwnNames next ↔ LoadsOwnNames host state step)) := by
  cases step with
  | loadFromConfig servers =>
    simp only [registryStep?] at hnext
    split at hnext
    · cases hnext
      exact ⟨h.closeAll servers, fun _ => iff_of_true (ownNames_of_no_entries fun _ => rfl) trivial⟩
    · exact absurd hnext (Option.some_ne_none next).symm
  | closeAll =>
    simp only [registryStep?] at hnext
    split at hnext
    · next hempty =>
      cases hnext
      have hclosed := h.closeAll ∅
      have htoLoad : state.closeAll.toLoad = [] := by
        have hsame (entries : List (JsString × RegistryEntry)) (start : RegistryState) :
            (entries.foldl (fun closed entry =>
              closed.unregisterTools entry.2.toolNames) start).toLoad = start.toLoad := by
          induction entries generalizing start with
          | nil => rfl
          | cons entry rest ih => exact ih _
        exact (hsame _ state).trans (List.isEmpty_iff.mp hempty)
      have heq : { state.closeAll with toLoad := [] } = state.closeAll := by rw [← htoLoad]
      refine ⟨heq ▸ hclosed, fun _ => iff_of_true (ownNames_of_no_entries fun _ => rfl) trivial⟩
    · exact absurd hnext (Option.some_ne_none next).symm
  | serverExits name error =>
    simp only [registryStep?] at hnext
    split at hnext
    · cases hnext
      exact ⟨h, fun hown => iff_of_true hown trivial⟩
    · next entry hentry =>
      split at hnext
      · cases hnext
        exact ⟨h.onExit error hentry, fun hown =>
          iff_of_true (ownNames_onExit h hown error hentry) trivial⟩
      · exact absurd hnext (Option.some_ne_none next).symm
  | loadNext answer =>
    simp only [registryStep?] at hnext
    split at hnext
    · exact absurd hnext (Option.some_ne_none next).symm
    · next name config rest hload =>
      cases hnext
      unfold RegistryState.loadServer
      split
      · next error herror =>
        refine ⟨And.left (h.setIdle hload ?_ ?_), fun hown =>
          iff_of_true ((And.right (h.setIdle hload ?_ ?_)).mpr hown) ?_⟩
        iterate 4 rfl
        cases answer with
        | failed message => trivial
        | listed reported =>
          intro name' config' rest' hload' hstart
          obtain ⟨hhead, -⟩ := List.cons.inj (hload.symm.trans hload')
          cases hhead
          exact absurd (herror.symm.trans hstart) (Option.some_ne_none error)
      · next hstart =>
        split
        · refine ⟨And.left (h.setIdle hload ?_ ?_), fun hown =>
            iff_of_true ((And.right (h.setIdle hload ?_ ?_)).mpr hown) trivial⟩
          iterate 4 rfl
        · next reported =>
          refine ⟨h.setReady hload, fun hown =>
            (ownNames_setReady_iff h hown hload).trans ⟨fun hmeets => ?_, fun hmeets =>
              hmeets name config rest hload hstart⟩⟩
          intro name' config' rest' hload' _
          obtain ⟨hhead, -⟩ := List.cons.inj (hload.symm.trans hload')
          cases hhead
          exact hmeets

theorem get?_startTools (otherTools : List JsString) (registeredName : JsString)
    (h : (startRegistry otherTools).tools.get? registeredName = some tool) : tool = .other := by
  have hwritten := get?_foldl_set id (fun _ : JsString => AgentTool.other) otherTools ∅
    registeredName
  rcases Option.or_eq_some_iff.mp (hwritten.symm.trans h) with hfound | ⟨-, hnone⟩
  · obtain ⟨-, -, rfl⟩ := Option.map_eq_some_iff.mp hfound
    rfl
  · exact absurd hnone (Option.some_ne_none tool).symm

theorem registryBooks_start (host : CaseHost) (otherTools : List JsString) :
    RegistryBooks host (startRegistry otherTools) :=
  ⟨fun _ _ hentry => absurd hentry (Option.some_ne_none _).symm,
    fun _ _ hentry => absurd hentry (Option.some_ne_none _).symm,
    fun _ _ _ _ hget => AgentTool.noConfusion (get?_startTools otherTools _ hget),
    nodup_nil, nofun⟩

/-- From a dispatcher without servers, the tools are registered in every state of a run exactly
where each server that lists its tools has registered names that are its own. -/
theorem toolsRegistered_iff (host : CaseHost) (otherTools : List JsString)
    (steps : List RegistryStep) (last : RegistryState) :
    Run (Reaching ToolsRegistered (Takes (registryStep? host))) (startRegistry otherTools) steps
        last ↔
      Run (Meeting (LoadsOwnNames host) (Takes (registryStep? host))) (startRegistry otherTools)
        steps last := by
  have hbooks := registryBooks_start host otherTools
  refine Run.reaching_iff_meeting (RegistryBooks host)
    (fun _ _ _ h hnext => (registry_step h hnext).1) (fun state step next h hgood hnext => ?_)
    hbooks (hbooks.toolsRegistered_iff_ownNames.mpr (ownNames_of_no_entries fun _ => rfl))
  obtain ⟨hafter, hown⟩ := registry_step h hnext
  exact hafter.toolsRegistered_iff_ownNames.trans (hown (h.toolsRegistered_iff_ownNames.mp hgood))

/-- Whatever the names of the tools, no bridge outlives its server. -/
theorem bridges_live (host : CaseHost) (otherTools : List JsString) (steps : List RegistryStep)
    (last : RegistryState) :
    Run (Reaching BridgesLive (Takes (registryStep? host))) (startRegistry otherTools) steps last ↔
      Run (Takes (registryStep? host)) (startRegistry otherTools) steps last :=
  Run.reaching_iff (RegistryBooks host) (fun _ _ _ h hnext => (registry_step h hnext).1)
    (fun _ h => h.live) (registryBooks_start host otherTools)

/-! ## Two names that become one -/

def stdioServer : McpServerConfig := { command := some (ofString "node") }

/-- A server with two tools whose names differ in a sign. -/
def twinTools : List RegistryStep :=
  [.loadFromConfig ⟨[(ofString "fake", stdioServer)], List.nodup_singleton _⟩,
    .loadNext (.listed [⟨ofString "read-file", []⟩, ⟨ofString "read_file", []⟩])]

theorem twinTools_counts : (execute (registryStep? asciiCase) (startRegistry []) twinTools).map
    (fun state => ((bridgeNames state (ofString "fake")).length,
      (state.entries.get? (ofString "fake")).map fun entry =>
        (entry.status.ready, entry.status.registeredToolCount))) =
      some (1, some (true, 2)) := by
  decide +kernel

/-- Two tools are counted and one is registered. -/
theorem twinTools_notRegistered : ∃ state,
    Run (Takes (registryStep? asciiCase)) (startRegistry []) twinTools state ∧
      ¬ ToolsRegistered state := by
  obtain ⟨state, hstate, hcounts⟩ := Option.map_eq_some_iff.mp twinTools_counts
  obtain ⟨hlength, hentry⟩ := Prod.mk.inj hcounts
  obtain ⟨entry, hget, hstatus⟩ := Option.map_eq_some_iff.mp hentry
  obtain ⟨hready, hcount⟩ := Prod.mk.inj hstatus
  refine ⟨state, Run.of_execute hstate, fun hregistered => ?_⟩
  have hcounted := hregistered.counted _ entry hget hready
  rw [hcount, hlength] at hcounted
  cases hcounted

end Nobie.Mcp
