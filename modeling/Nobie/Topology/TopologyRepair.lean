/-
# Repair and validation of a topology

A topology comes to be stored as an object that may have members its type does not name,
fields of older versions among them. The repair deletes those fields, rebuilds the metadata
and drops edges; the validator looks at the same object. They agree unless the repair copies
a key that is out of date, or an edge it keeps has an endpoint that the validator reads
differently: the repair asks for some active node under the id, the validator for the last.
-/

import Nobie.Topology.Acceptance
import Nobie.Topology.Materialization

namespace Nobie.Topology

open Foundation List

/-! ## Two walks over metadata

The repair looks at the keys of the metadata and of the `executorGraph` in it, the validator at
every object at any depth. -/

section Metadata

/-! ## The search of the validator -/

/-- Some object in the value has a key that is out of date. -/
inductive StaleInside : Json → Prop
  | item {items : List Json} {item : Json} (hitem : item ∈ items) (h : StaleInside item) :
      StaleInside (.arr items)
  | key {fields : JsonObject} {field : String × Json} (hfield : field ∈ Json.entries fields)
      (hstale : isStaleMetadataKey field.1 = true) : StaleInside (.obj fields)
  | member {fields : JsonObject} {field : String × Json} (hfield : field ∈ Json.entries fields)
      (h : StaleInside field.2) : StaleInside (.obj fields)

variable {items : List Json} {key : String} (item : Json) {index : ℕ} (value : Json) {ref : Json}

theorem staleInside_arr : StaleInside (.arr items) ↔ ∃ item ∈ items, StaleInside item := by
  constructor
  · rintro (⟨hitem, h⟩)
    exact ⟨_, hitem, h⟩
  · rintro ⟨item, hitem, h⟩
    exact .item hitem h

theorem staleInside_obj {fields : JsonObject} : StaleInside (.obj fields) ↔
    ∃ field ∈ Json.entries fields, isStaleMetadataKey field.1 ∨ StaleInside field.2 := by
  constructor
  · intro h
    cases h with
    | key hfield hstale => exact ⟨_, hfield, Or.inl hstale⟩
    | member hfield h => exact ⟨_, hfield, Or.inr h⟩
  · rintro ⟨field, hfield, hstale | h⟩
    · exact .key hfield hstale
    · exact .member hfield h

variable (path : String) (nodeId : Option String) (fields : JsonObject) {field : String × Json}

/-- The issues about one member of an object. -/
def staleMemberIssues (key : String) (item : Json) : List ExecutorTopologyV2ValidationIssue :=
  (staleFieldIssues path nodeId [(key, item)]).flatMap Prod.snd

theorem staleMemberIssues_of_stale (item : Json) (hstale : isStaleMetadataKey key) :
    ∃ issue : ExecutorTopologyV2ValidationIssue, issue.code = "stale_metadata_field" ∧
      staleMemberIssues path nodeId key item = [issue] := by
  simp [staleMemberIssues, staleFieldIssues, hstale]

theorem staleMemberIssues_of_not_stale {path : String} {nodeId : Option String}
    (hstale : isStaleMetadataKey key = false) :
    staleMemberIssues path nodeId key item =
      staleMetadataIssues (s!"{path}.{key}") nodeId item := by
  simp [staleMemberIssues, staleFieldIssues, hstale]

theorem staleFieldIssues_eq :
    staleFieldIssues path nodeId fields =
      fields.map fun field => (field.1, staleMemberIssues path nodeId field.1 field.2) := by
  induction fields with
  | nil => rfl
  | cons field rest ih =>
    obtain ⟨key, item⟩ := field
    rw [staleFieldIssues, ih, map_cons]
    simp [staleMemberIssues, staleFieldIssues]

theorem staleMetadataIssues_obj :
    staleMetadataIssues path nodeId (.obj fields) =
      (Json.entries fields).flatMap fun field => staleMemberIssues path nodeId field.1 field.2 := by
  rw [staleMetadataIssues, staleFieldIssues_eq, Json.entries_map, flatMap_map]

theorem staleItemIssues_eq_nil {path : String} {nodeId : Option String}
    (h : ∀ item ∈ items, ∀ path, staleMetadataIssues path nodeId item = [] ↔ ¬ StaleInside item) :
    staleItemIssues path nodeId index items = [] ↔ ∀ item ∈ items, ¬ StaleInside item := by
  induction items generalizing index with
  | nil => simp [staleItemIssues]
  | cons item rest ih =>
    obtain ⟨hitem, hrest⟩ := forall_mem_cons.mp h
    rw [staleItemIssues, append_eq_nil_iff, hitem, ih hrest, forall_mem_cons]

/-- The validator raises an issue if some object in the value has a key that is out of date. -/
theorem staleMetadataIssues_eq_nil (value : Json) (path : String) :
    staleMetadataIssues path nodeId value = [] ↔ ¬ StaleInside value := by
  induction value using Json.inductionOn generalizing path with
  | null | bool _ | num _ | str _ =>
    refine iff_of_true (by simp [staleMetadataIssues]) ?_
    rintro ⟨⟩
  | arr items ih =>
    rw [staleMetadataIssues, staleItemIssues_eq_nil ih, staleInside_arr]
    push Not
    rfl
  | obj fields ih =>
    rw [staleMetadataIssues_obj, flatMap_eq_nil_iff, staleInside_obj]
    push Not
    refine forall₂_congr fun field hfield => ?_
    cases hstale : isStaleMetadataKey field.1 with
    | true =>
      obtain ⟨issue, -, hissue⟩ := staleMemberIssues_of_stale path nodeId field.2 hstale
      simp [hissue]
    | false =>
      rw [staleMemberIssues_of_not_stale _ hstale, ih field (Json.mem_of_mem_entries hfield)]
      simp

theorem code_of_mem_staleItemIssues {path : String} {nodeId : Option String}
    (h : ∀ item ∈ items, ∀ path, ∀ issue ∈ staleMetadataIssues path nodeId item,
      issue.code = "stale_metadata_field") :
    ∀ issue ∈ staleItemIssues path nodeId index items, issue.code = "stale_metadata_field" := by
  induction items generalizing index with
  | nil => exact nofun
  | cons item rest ih =>
    obtain ⟨hitem, hrest⟩ := forall_mem_cons.mp h
    rw [staleItemIssues]
    exact forall_mem_append.mpr ⟨hitem _, ih hrest⟩

/-- All issues of the search have one code. -/
theorem code_of_mem_staleMetadataIssues (value : Json) (path : String) :
    ∀ issue ∈ staleMetadataIssues path nodeId value, issue.code = "stale_metadata_field" := by
  induction value using Json.inductionOn generalizing path with
  | null | bool _ | num _ | str _ => rw [staleMetadataIssues] <;> simp
  | arr items ih =>
    rw [staleMetadataIssues]
    exact code_of_mem_staleItemIssues ih
  | obj fields ih =>
    rw [staleMetadataIssues_obj]
    intro issue hissue
    obtain ⟨field, hfield, hissue⟩ := mem_flatMap.mp hissue
    cases hstale : isStaleMetadataKey field.1 with
    | true =>
      obtain ⟨_, hcode, hsingle⟩ := staleMemberIssues_of_stale path nodeId field.2 hstale
      rw [hsingle] at hissue
      rw [mem_singleton.mp hissue, hcode]
    | false =>
      rw [staleMemberIssues_of_not_stale _ hstale] at hissue
      exact ih field (Json.mem_of_mem_entries hfield) _ issue hissue

/-! ## Copies -/

theorem cloneItems_eq (items : List Json) : cloneItems items = items.map cloneMetadataValue := by
  induction items with
  | nil => rfl
  | cons item rest ih => rw [cloneItems, ih, map_cons]

theorem cloneFields_eq :
    cloneFields fields = fields.map fun field => (field.1, cloneMetadataValue field.2) := by
  induction fields with
  | nil => rfl
  | cons field rest ih =>
    obtain ⟨key, value⟩ := field
    rw [cloneFields, ih, map_cons]

theorem cloneMetadataValue_obj :
    cloneMetadataValue (.obj fields) =
      .obj ((Json.entries fields).map fun field => (field.1, cloneMetadataValue field.2)) := by
  rw [cloneMetadataValue, cloneFields_eq, Json.entries_map fun _ => cloneMetadataValue]

/-- A copy is its own copy. -/
theorem cloneMetadataValue_clone :
    cloneMetadataValue (cloneMetadataValue value) = cloneMetadataValue value := by
  induction value using Json.inductionOn with
  | null | bool _ | num _ | str _ => rfl
  | arr items ih =>
    rw [cloneMetadataValue, cloneMetadataValue, cloneItems_eq, cloneItems_eq, map_map]
    exact congrArg Json.arr (map_congr_left ih)
  | obj fields ih =>
    rw [cloneMetadataValue_obj, cloneMetadataValue_obj, Json.entries_eq_self
      ((Json.listed_entries fields).map fun _ => cloneMetadataValue), map_map]
    refine congrArg Json.obj (map_congr_left fun field hfield => ?_)
    exact congrArg (Prod.mk field.1) (ih field (Json.mem_of_mem_entries hfield))

/-- A copy has the keys of its original, at every depth. -/
theorem staleInside_clone : StaleInside (cloneMetadataValue value) ↔ StaleInside value := by
  induction value using Json.inductionOn with
  | null | bool _ | num _ | str _ => rfl
  | arr items ih =>
    rw [cloneMetadataValue, cloneItems_eq, staleInside_arr, staleInside_arr]
    simp only [mem_map, exists_exists_and_eq_and]
    exact exists_congr fun item => and_congr_right fun hitem => ih item hitem
  | obj fields ih =>
    rw [cloneMetadataValue_obj, staleInside_obj, staleInside_obj, Json.entries_eq_self
      ((Json.listed_entries fields).map fun _ => cloneMetadataValue)]
    simp only [mem_map, exists_exists_and_eq_and]
    exact exists_congr fun field => and_congr_right fun hfield =>
      or_congr_right (ih field (Json.mem_of_mem_entries hfield))

/-! ## The metadata that is kept -/

theorem lookup_eq_none {fields : JsonObject} (h : ∀ field ∈ fields, field.1 ≠ key) :
    Json.lookup fields key = none := by
  rw [Json.lookup, Option.map_eq_none_iff, find?_eq_none]
  intro field hfield
  simpa using h field (mem_reverse.mp hfield)

/-- An object of texts is its own copy if it lists its members as they stand. -/
theorem textObject_spec {fields : JsonObject} (hlisted : Json.Listed fields)
    (htext : ∀ field ∈ fields, ∃ text, field.2 = .str text)
    (hkept : ∀ field ∈ fields, isStaleMetadataKey field.1 = false) :
    cloneMetadataValue (.obj fields) = .obj fields ∧ ¬ StaleInside (.obj fields) := by
  constructor
  · rw [cloneMetadataValue_obj, Json.entries_eq_self hlisted]
    refine congrArg Json.obj ((map_congr_left fun field hfield => ?_).trans (map_id fields))
    obtain ⟨text, htext⟩ := htext field hfield
    have hcopy : cloneMetadataValue (.str text) = .str text := rfl
    rw [htext, hcopy, ← htext]
    rfl
  · rw [staleInside_obj, Json.entries_eq_self hlisted]
    rintro ⟨field, hfield, hstale | hinside⟩
    · rw [hkept field hfield] at hstale
      cases hstale
    · obtain ⟨text, htext⟩ := htext field hfield
      rw [htext] at hinside
      cases hinside

/-- A reference to a suggestion run is its own copy and has no key that is out of date. -/
theorem auditRef_spec {record : Option Json} (href : ref ∈ auditRef record) :
    cloneMetadataValue ref = ref ∧ ¬ StaleInside ref := by
  unfold auditRef at href
  split at href
  · next runId hrun =>
    obtain rfl := mem_singleton.mp href
    cases maybeString (record.bind (·.field? "selectedAlternativeId")) with
    | none | some => apply textObject_spec (.of_names _ _) <;> simp [optionalMember] <;> decide
  · cases href

theorem auditRefsFromMetadata_spec {fields : JsonObject} (href : ref ∈ auditRefsFromMetadata fields)
    :
    cloneMetadataValue ref = ref ∧ ¬ StaleInside ref := by
  rcases mem_append.mp href with hstate | hhistory
  · exact auditRef_spec hstate
  · obtain ⟨item, -, hitem⟩ := mem_flatMap.mp hhistory
    exact auditRef_spec hitem

section Sanitize

variable (topologyId : String) (nodeId : Option String)

/-- What becomes of one member of the metadata. -/
def sanitizeMember (path : String) (key : String) (item : Json) :
    Option Json × List MigrationIssue :=
  ((sanitizeFields topologyId nodeId path [(key, item)]).head (by simp [sanitizeFields])).2

theorem sanitizeMember_stale (path : String) (item : Json) (hstale : isStaleMetadataKey key) :
    (sanitizeMember topologyId nodeId path key item).1 = none := by
  simp [sanitizeMember, sanitizeFields, hstale]

theorem sanitizeMember_graph (path : String) (item : Json) :
    sanitizeMember topologyId nodeId path "executorGraph" item =
      ((sanitizeMetadata topologyId nodeId s!"{path}.executorGraph" item).1.map .obj,
        (sanitizeMetadata topologyId nodeId s!"{path}.executorGraph" item).2) := by
  have hkept : isStaleMetadataKey "executorGraph" = false := by decide
  simp [sanitizeMember, sanitizeFields, hkept]

theorem sanitizeMember_proto (path : String) (item : Json) :
    sanitizeMember topologyId nodeId path "__proto__" item = (none, []) := by
  have hkept : isStaleMetadataKey "__proto__" = false := by decide
  simp [sanitizeMember, sanitizeFields, hkept]

theorem sanitizeMember_copy (path : String) (item : Json) (hkept : isStaleMetadataKey key = false)
    (hgraph : key ≠ "executorGraph") (hproto : key ≠ "__proto__") :
    sanitizeMember topologyId nodeId path key item = (some (cloneMetadataValue item), []) := by
  simp [sanitizeMember, sanitizeFields, hkept, hgraph, hproto]

theorem sanitizeFields_eq (path : String) (fields : JsonObject) :
    sanitizeFields topologyId nodeId path fields =
      fields.map fun field => (field.1, sanitizeMember topologyId nodeId path field.1 field.2) := by
  induction fields with
  | nil => rfl
  | cons field rest ih =>
    obtain ⟨key, item⟩ := field
    rw [sanitizeFields, ih, map_cons]
    simp [sanitizeMember, sanitizeFields]

/-- The members that are kept, before the references to suggestion runs are written. -/
def keptMembers (path : String) (fields : JsonObject) : JsonObject :=
  (Json.entries fields).flatMap fun field =>
    optionalMember field.1 (sanitizeMember topologyId nodeId path field.1 field.2).1

/-- The members that are kept. -/
def keptMetadata (path : String) (fields : JsonObject) : JsonObject :=
  if auditRefsFromMetadata fields = [] then keptMembers topologyId nodeId path fields
  else OrderedMap.insertEntry (keptMembers topologyId nodeId path fields) "aiSuggestionAuditRefs"
    (.arr (auditRefsFromMetadata fields))

theorem sanitizeMetadata_obj (path : String) (fields : JsonObject) :
    sanitizeMetadata topologyId nodeId path (.obj fields) =
      (if keptMetadata topologyId nodeId path fields = [] then none
        else some (keptMetadata topologyId nodeId path fields),
      (Json.entries fields).flatMap fun field =>
        (sanitizeMember topologyId nodeId path field.1 field.2).2) := by
  rw [sanitizeMetadata, sanitizeFields_eq, Json.entries_map, flatMap_map, flatMap_map]
  rfl

variable {topologyId nodeId}

theorem mem_keptMembers {path : String} {fields : JsonObject} :
    field ∈ keptMembers topologyId nodeId path fields ↔
      ∃ item, (field.1, item) ∈ Json.entries fields ∧
        (sanitizeMember topologyId nodeId path field.1 item).1 = some field.2 := by
  obtain ⟨key, value⟩ := field
  simp only [keptMembers, mem_flatMap, optionalMember, Option.mem_toList, Option.map_eq_some_iff,
    Prod.mk.injEq, exists_eq_right_right, Prod.exists]
  constructor
  · rintro ⟨_, item, hitem, hvalue, rfl⟩
    exact ⟨item, hitem, hvalue⟩
  · rintro ⟨item, hitem, hvalue⟩
    exact ⟨key, item, hitem, hvalue, rfl⟩

theorem listed_keptMembers (path : String) (fields : JsonObject) :
    Json.Listed (keptMembers topologyId nodeId path fields) := by
  refine (Json.listed_entries fields).sublist ?_
  unfold keptMembers
  induction Json.entries fields with
  | nil => exact List.Sublist.refl _
  | cons field rest ih =>
    rw [flatMap_cons, map_append, map_cons]
    cases (sanitizeMember topologyId nodeId path field.1 field.2).1 with
    | none => exact ih.cons _
    | some value => exact ih.cons_cons _

theorem listed_keptMetadata (path : String) (fields : JsonObject) :
    Json.Listed (keptMetadata topologyId nodeId path fields) := by
  unfold keptMetadata
  split
  · exact listed_keptMembers path fields
  · exact (listed_keptMembers path fields).insertEntry (by decide) _

/-- What is kept: the members that are, and the references to suggestion runs if there are any. -/
theorem mem_keptMetadata {path : String} {fields : JsonObject} :
    field ∈ keptMetadata topologyId nodeId path fields ↔
      auditRefsFromMetadata fields ≠ [] ∧
          field = ("aiSuggestionAuditRefs", .arr (auditRefsFromMetadata fields)) ∨
        field ∈ keptMembers topologyId nodeId path fields ∧
          (field.1 = "aiSuggestionAuditRefs" → auditRefsFromMetadata fields = []) := by
  unfold keptMetadata
  split
  · next hnone => simp [hnone]
  · next hsome =>
    rw [OrderedMap.mem_insertEntry_iff (listed_keptMembers path fields).nodup]
    simp [hsome]

/-! ## A second repair -/

variable (topologyId nodeId) in
/-- Metadata in which the repair finds nothing to do. -/
structure Settled (path : String) (fields : JsonObject) : Prop where
  listed : Json.Listed fields
  member : ∀ field ∈ fields,
    sanitizeMember topologyId nodeId path field.1 field.2 = (some field.2, [])

section

variable {path : String} {fields : JsonObject} (h : Settled topologyId nodeId path fields)
include h

theorem Settled.not_stale (hfield : field ∈ fields) :
    isStaleMetadataKey field.1 = false := by
  cases hstale : isStaleMetadataKey field.1 with
  | false => rfl
  | true =>
    have hnone := sanitizeMember_stale topologyId nodeId path field.2 hstale
    rw [h.member field hfield] at hnone
    cases hnone

theorem Settled.auditRefs_eq_nil : auditRefsFromMetadata fields = [] := by
  have hlookup {key : String} (hstale : isStaleMetadataKey key) :
      Json.lookup fields key = none := by
    refine lookup_eq_none fun field hfield heq => ?_
    have hkept := h.not_stale hfield
    rw [heq, hstale] at hkept
    cases hkept
  rw [auditRefsFromMetadata, hlookup (by decide), hlookup (by decide)]
  rfl

theorem Settled.keptMetadata_eq :
    keptMetadata topologyId nodeId path fields = fields := by
  rw [keptMetadata, if_pos h.auditRefs_eq_nil, keptMembers, Json.entries_eq_self h.listed]
  calc fields.flatMap (fun field =>
        optionalMember field.1 (sanitizeMember topologyId nodeId path field.1 field.2).1)
      = fields.flatMap fun field => [field] := by
        refine flatMap_congr fun field hfield => ?_
        rw [h.member field hfield]
        rfl
    _ = fields := flatMap_singleton' fields

theorem Settled.sanitizeMetadata_eq (hne : fields ≠ []) :
    sanitizeMetadata topologyId nodeId path (.obj fields) = (some fields, []) := by
  rw [sanitizeMetadata_obj, h.keptMetadata_eq, if_neg hne, Json.entries_eq_self h.listed]
  congr 1
  rw [flatMap_eq_nil_iff]
  intro field hfield
  rw [h.member field hfield]

end

theorem settled_keptMetadata {path : String} {fields : JsonObject}
    (h : ∀ item, ("executorGraph", item) ∈ Json.entries fields → ∀ graph,
      (sanitizeMetadata topologyId nodeId s!"{path}.executorGraph" item).1 = some graph →
        sanitizeMetadata topologyId nodeId s!"{path}.executorGraph" (.obj graph) =
          (some graph, [])) :
    Settled topologyId nodeId path (keptMetadata topologyId nodeId path fields) := by
  refine ⟨listed_keptMetadata path fields, fun field hfield => ?_⟩
  rcases mem_keptMetadata.mp hfield with ⟨-, rfl⟩ | ⟨hmember, -⟩
  · dsimp only
    rw [sanitizeMember_copy _ _ _ _ (by decide) (by decide) (by decide), cloneMetadataValue,
      cloneItems_eq]
    congr 3
    exact (map_congr_left fun ref href => (auditRefsFromMetadata_spec href).1).trans
      (map_id _)
  · obtain ⟨key, value⟩ := field
    obtain ⟨item, hitem, hvalue⟩ := mem_keptMembers.mp hmember
    cases hstale : isStaleMetadataKey key with
    | true =>
      rw [sanitizeMember_stale _ _ _ _ hstale] at hvalue
      cases hvalue
    | false =>
      by_cases hgraph : key = "executorGraph"
      · subst hgraph
        rw [sanitizeMember_graph] at hvalue ⊢
        obtain ⟨graph, hgraph, rfl⟩ := Option.map_eq_some_iff.mp hvalue
        rw [h item hitem graph hgraph]
        rfl
      · by_cases hproto : key = "__proto__"
        · subst hproto
          rw [sanitizeMember_proto] at hvalue
          cases hvalue
        · rw [sanitizeMember_copy _ _ _ _ hstale hgraph hproto] at hvalue ⊢
          rw [← Option.some.inj hvalue, cloneMetadataValue_clone]

/-- A repair of repaired metadata changes nothing and has no issue. -/
theorem sanitizeMetadata_again {path : String} {kept : JsonObject}
    (h : (sanitizeMetadata topologyId nodeId path value).1 = some kept) :
    sanitizeMetadata topologyId nodeId path (.obj kept) = (some kept, []) := by
  induction value using Json.inductionOn generalizing path kept with
  | null | bool _ | num _ | str _ | arr _ _ => simp [sanitizeMetadata] at h
  | obj fields ih =>
    rw [sanitizeMetadata_obj] at h
    split at h
    · cases h
    · next hne =>
      cases h
      exact (settled_keptMetadata fun item hitem _ hgraph =>
        ih _ (Json.mem_of_mem_entries hitem) hgraph).sanitizeMetadata_eq hne

/-! ## What a repair leaves behind -/

/-- Is the value under a key copied as it is? The references to suggestion runs, if there are
any, take the place of what stood under their key. -/
structure CopiedWhole (fields : JsonObject) (key : String) : Prop where
  kept : isStaleMetadataKey key = false
  notGraph : key ≠ "executorGraph"
  notProto : key ≠ "__proto__"
  notReplaced : key = "aiSuggestionAuditRefs" → auditRefsFromMetadata fields = []

/-- The repair of the metadata keeps a key that is out of date: it is inside a value that is
copied as it is, of the metadata or of an `executorGraph` in it. -/
inductive KeepsStale : JsonObject → Prop
  | member {fields : JsonObject} {field : String × Json} (hfield : field ∈ Json.entries fields)
      (hcopied : CopiedWhole fields field.1) (h : StaleInside field.2) : KeepsStale fields
  | graph {fields graph : JsonObject}
      (hgraph : ("executorGraph", Json.obj graph) ∈ Json.entries fields) (h : KeepsStale graph) :
      KeepsStale fields

theorem staleInside_keptMetadata {path : String} {fields : JsonObject} :
    StaleInside (.obj (keptMetadata topologyId nodeId path fields)) ↔
      ∃ field ∈ keptMetadata topologyId nodeId path fields,
        isStaleMetadataKey field.1 ∨ StaleInside field.2 := by
  rw [staleInside_obj, Json.entries_eq_self (listed_keptMetadata path fields)]

theorem keepsStale_of_keptMetadata {path : String} {fields : JsonObject}
    (ih : ∀ graph, ("executorGraph", Json.obj graph) ∈ Json.entries fields →
      StaleInside (.obj (keptMetadata topologyId nodeId s!"{path}.executorGraph" graph)) →
        KeepsStale graph)
    (h : StaleInside (.obj (keptMetadata topologyId nodeId path fields))) : KeepsStale fields := by
  obtain ⟨⟨key, value⟩, hfield, hinside⟩ := staleInside_keptMetadata.mp h
  rcases mem_keptMetadata.mp hfield with ⟨-, heq⟩ | ⟨hmember, hreplaced⟩
  · cases heq
    have hkept : isStaleMetadataKey "aiSuggestionAuditRefs" = false := by decide
    rcases hinside with hstale | hinside
    · cases hkept.symm.trans hstale
    · obtain ⟨ref, href, hinside⟩ := staleInside_arr.mp hinside
      exact absurd hinside (auditRefsFromMetadata_spec href).2
  · obtain ⟨item, hitem, hvalue⟩ := mem_keptMembers.mp hmember
    cases hstale : isStaleMetadataKey key with
    | true =>
      rw [sanitizeMember_stale _ _ _ _ hstale] at hvalue
      cases hvalue
    | false =>
      replace hinside := hinside.resolve_left (by rw [hstale]; exact Bool.false_ne_true)
      by_cases hgraph : key = "executorGraph"
      · subst hgraph
        rw [sanitizeMember_graph] at hvalue
        cases item with
        | obj graph =>
          rw [sanitizeMetadata_obj] at hvalue
          obtain ⟨kept, hkept, rfl⟩ := Option.map_eq_some_iff.mp hvalue
          split at hkept
          · cases hkept
          · cases hkept
            exact .graph hitem (ih graph hitem hinside)
        | null | bool _ | num _ | str _ | arr _ => simp [sanitizeMetadata] at hvalue
      · by_cases hproto : key = "__proto__"
        · subst hproto
          rw [sanitizeMember_proto] at hvalue
          cases hvalue
        · rw [sanitizeMember_copy _ _ _ _ hstale hgraph hproto] at hvalue
          cases hvalue
          exact .member hitem ⟨hstale, hgraph, hproto, hreplaced⟩
            ((staleInside_clone item).mp hinside)

theorem KeepsStale.staleInside {fields : JsonObject} (h : KeepsStale fields) (path : String) :
    StaleInside (.obj (keptMetadata topologyId nodeId path fields)) := by
  induction h generalizing path with
  | @member fields field hfield hcopied hinside =>
    refine staleInside_keptMetadata.mpr ⟨(field.1, cloneMetadataValue field.2),
      mem_keptMetadata.mpr (Or.inr ⟨mem_keptMembers.mpr ⟨field.2, hfield, ?_⟩,
        hcopied.notReplaced⟩), Or.inr ((staleInside_clone field.2).mpr hinside)⟩
    rw [sanitizeMember_copy _ _ _ _ hcopied.kept hcopied.notGraph hcopied.notProto]
  | @graph fields graph hgraph _ ih =>
    have hinside := ih s!"{path}.executorGraph"
    have hname : "executorGraph" ≠ "aiSuggestionAuditRefs" := by decide
    refine staleInside_keptMetadata.mpr ⟨("executorGraph", .obj _),
      mem_keptMetadata.mpr (Or.inr ⟨mem_keptMembers.mpr ⟨.obj graph, hgraph, ?_⟩,
        fun heq => absurd heq hname⟩), Or.inr hinside⟩
    have hne : keptMetadata topologyId nodeId s!"{path}.executorGraph" graph ≠ [] := by
      intro hnil
      obtain ⟨field, hfield, -⟩ := staleInside_keptMetadata.mp hinside
      rw [hnil] at hfield
      cases hfield
    rw [sanitizeMember_graph, sanitizeMetadata_obj, if_neg hne]
    rfl

variable (topologyId nodeId) in
/-- The rebuilt metadata has a key that is out of date if the repair keeps one. -/
theorem staleInside_keptMetadata_iff (fields : JsonObject) (path : String) :
    StaleInside (.obj (keptMetadata topologyId nodeId path fields)) ↔ KeepsStale fields := by
  refine ⟨?_, fun h => h.staleInside path⟩
  suffices hvalue : ∀ (value : Json) (fields : JsonObject) (path : String), value = .obj fields →
      StaleInside (.obj (keptMetadata topologyId nodeId path fields)) → KeepsStale fields from
    hvalue _ fields path rfl
  intro value
  induction value using Json.inductionOn with
  | null | bool _ | num _ | str _ | arr _ _ => rintro _ _ ⟨⟩
  | obj members ih =>
    rintro fields path ⟨⟩ hinside
    exact keepsStale_of_keptMetadata (fun graph hgraph =>
      ih _ (Json.mem_of_mem_entries hgraph) graph _ rfl) hinside

/-- What the validator finds in metadata that the repair has rebuilt. -/
theorem not_staleInside_sanitizeMetadataForV2 (metadata : Option JsonObject) (path : String) :
    (∀ kept ∈ (sanitizeMetadataForV2 topologyId nodeId path metadata).1,
        ¬ StaleInside (.obj kept)) ↔
      ∀ fields ∈ metadata, ¬ KeepsStale fields := by
  cases metadata with
  | none => simp [sanitizeMetadataForV2]
  | some fields =>
    have hiff := staleInside_keptMetadata_iff topologyId nodeId fields path
    simp only [sanitizeMetadataForV2, Option.map_some, Option.getD_some, sanitizeMetadata_obj,
      Option.mem_some_iff, forall_eq']
    split
    · next hnil =>
      refine iff_of_true (fun _ hkept => by cases hkept) fun hkeeps => ?_
      obtain ⟨field, hfield, -⟩ := staleInside_keptMetadata.mp (hiff.mpr hkeeps)
      rw [hnil] at hfield
      cases hfield
    · simp only [Option.mem_some_iff, forall_eq', hiff]

end Sanitize

end Metadata

/-! ## A topology with other members -/

/-- The members of a topology by its type. -/
def topologyMembers : List String :=
  ["schemaVersion", "id", "name", "status", "activeVersion", "nodes", "edges", "metadata",
    "createdAt", "updatedAt"]

/-- The members of a node by its type. -/
def nodeMembers : List String :=
  ["id", "name", "roleName", "description", "definitionQuickChips", "instruction", "position",
    "status", "profile", "metadata"]

/-- A value of the shape of a topology. It and its nodes may have other members. Those of an
edge are neither read nor changed by the repair or the validator and are left out. -/
@[ext]
structure TopologyValue where
  topology : ExecutorTopologyV2
  others : JsonObject
  /-- The other members of each node. -/
  nodeOthers : List JsonObject
  aligned : nodeOthers.length = topology.nodes.length
  foreign : ∀ member ∈ others, member.1 ∉ topologyMembers
  nodeForeign : ∀ members ∈ nodeOthers, ∀ member ∈ members, member.1 ∉ nodeMembers

/-- The members of a node with its other members. -/
def nodeFields (node : ExecutorNodeV2 × JsonObject) : JsonObject := node.1.fields ++ node.2

namespace TopologyValue

variable (value : TopologyValue)

def nodes : List (ExecutorNodeV2 × JsonObject) := value.topology.nodes.zip value.nodeOthers

/-- The members of the value. The nodes stand in place of those of the topology, which have
no other members. -/
def fields : JsonObject :=
  value.topology.fields ++
    [("nodes", .arr (value.nodes.map fun node => .obj (nodeFields node)))] ++ value.others

def toJson : Json := .obj value.fields

end TopologyValue

/-! ## The repair -/

variable (names : List String) (fields : JsonObject)

/-- What is left when the members under some names are deleted. -/
def withoutMembers : JsonObject := fields.filter fun field => field.1 ∉ names

variable (value : TopologyValue) (topology : ExecutorTopologyV2) (host : Host)

/-- The issues of the stale fields of a topology. -/
def removedTopologyFields : List MigrationIssue :=
  (staleFieldNames value.fields staleTopologyFields).map fun field =>
    { code := "executor_topology_v2_stale_topology_field_removed"
      message := s!"Removed stale topology field {field} from ExecutorTopologyV2 " ++
        "persistence payload."
      topologyId := value.topology.id }

variable (topologyId : String) {key : String} (nodeId : Option String) (path : String)
  (scan : NodeScan) (index : ℕ)

/-- The issues of the stale fields of a node. -/
def removedNodeFields (node : ExecutorNodeV2 × JsonObject) : List MigrationIssue :=
  (staleFieldNames (nodeFields node) staleNodeFields).map fun field =>
    { code := "executor_topology_v2_stale_node_field_removed"
      message := s!"Removed stale node field {field} from ExecutorTopologyV2 persistence payload."
      topologyId, nodeId := some node.1.id }

/-- The issues of the edges that are dropped. -/
def removedEdges (topology : ExecutorTopologyV2) : List MigrationIssue :=
  (topology.edges.filter fun edge => !keepEdge topology.nodes edge).map fun edge =>
    { code := "executor_topology_v2_invalid_edge_removed", topologyId := topology.id
      message := s!"Removed invalid edge {edge.id} from ExecutorTopologyV2 persistence payload."
      edgeId := some edge.id }

/-- The value after `repairExecutorTopologyV2ForPersistence`. -/
def repairedValue : TopologyValue where
  topology := (repairExecutorTopologyV2ForPersistence value.topology).topology
  others := withoutMembers staleTopologyFields value.others
  nodeOthers := value.nodeOthers.map (withoutMembers staleNodeFields)
  aligned := by simp [repairExecutorTopologyV2ForPersistence, value.aligned]
  foreign := fun member hmember => value.foreign member (List.mem_of_mem_filter hmember)
  nodeForeign := by
    intro members hmembers member hmember
    obtain ⟨others, hothers, rfl⟩ := List.mem_map.mp hmembers
    exact value.nodeForeign others hothers member (List.mem_of_mem_filter hmember)

/-- The issues of `repairExecutorTopologyV2ForPersistence`, in the order they are raised. -/
def repairIssues : List MigrationIssue :=
  removedTopologyFields value ++
    (sanitizeMetadataForV2 value.topology.id none "topology.metadata" value.topology.metadata).2 ++
    (value.nodes.flatMap fun node =>
      removedNodeFields value.topology.id node ++ (repairNode value.topology.id node.1).2) ++
    removedEdges value.topology

/-- `repairExecutorTopologyV2ForPersistence` on a value that may have other members. -/
def repairTopologyValue : TopologyValue × List MigrationIssue :=
  (repairedValue value, repairIssues value)

/-! ## Members by name -/

theorem topology_fields_named : ∀ field ∈ topology.fields, field.1 ∈ topologyMembers := by
  cases hversion : topology.activeVersion <;> cases hmetadata : topology.metadata <;>
    simp [ExecutorTopologyV2.fields, optionalMember, topologyMembers, hversion, hmetadata]

theorem node_fields_named (node : ExecutorNodeV2) :
    ∀ field ∈ node.fields, field.1 ∈ nodeMembers := by
  intro field hfield
  simp only [ExecutorNodeV2.fields, optionalMember, mem_append, Option.mem_toList,
    Option.map_eq_some_iff, mem_cons, not_mem_nil, or_false] at hfield
  simp only [nodeMembers, mem_cons, not_mem_nil, or_false]
  grind

variable (value : TopologyValue)

/-- A member that the type names is none of the other members. -/
theorem lookup_topologyMember (hkey : key ∈ topologyMembers) (hnodes : key ≠ "nodes") :
    Json.lookup value.fields key = Json.lookup value.topology.fields key := by
  have hothers : Json.lookup value.others key = none :=
    lookup_eq_none fun member hmember heq => value.foreign member hmember (heq ▸ hkey)
  rw [TopologyValue.fields, lookup_append, hothers, lookup_append, lookup_cons,
    if_neg (Ne.symm hnodes)]
  rfl

theorem lookup_topologyNodes : Json.lookup value.fields "nodes" =
    some (.arr (value.nodes.map fun node => .obj (nodeFields node))) := by
  have hothers : Json.lookup value.others "nodes" = none :=
    lookup_eq_none fun member hmember heq => value.foreign member hmember (heq ▸ by decide)
  rw [TopologyValue.fields, lookup_append, hothers, lookup_append, lookup_cons, if_pos rfl]
  rfl

/-- A member that the type does not name is one of the other members. -/
theorem lookup_topologyOther (hkey : key ∉ topologyMembers) :
    Json.lookup value.fields key = Json.lookup value.others key := by
  have hown : Json.lookup value.topology.fields key = none :=
    lookup_eq_none fun field hfield heq =>
      hkey (heq ▸ topology_fields_named value.topology field hfield)
  have hnodes : "nodes" ≠ key := fun heq => hkey (heq ▸ by decide)
  rw [TopologyValue.fields, lookup_append, lookup_append, hown, lookup_cons, if_neg hnodes]
  simp

variable {node : ExecutorNodeV2 × JsonObject} {passes : Bool}
  {issue : ExecutorTopologyV2ValidationIssue} {nodes : List (ExecutorNodeV2 × JsonObject)}

theorem nodeForeign_of_mem (hnode : node ∈ value.nodes) :
    ∀ member ∈ node.2, member.1 ∉ nodeMembers :=
  value.nodeForeign node.2 (of_mem_zip hnode).2

theorem lookup_nodeMember (hforeign : ∀ member ∈ node.2, member.1 ∉ nodeMembers)
    (hkey : key ∈ nodeMembers) :
    Json.lookup (nodeFields node) key = Json.lookup node.1.fields key := by
  have hothers : Json.lookup node.2 key = none :=
    lookup_eq_none fun member hmember heq => hforeign member hmember (heq ▸ hkey)
  rw [nodeFields, lookup_append, hothers]
  rfl

theorem lookup_nodeOther (node : ExecutorNodeV2 × JsonObject) (hkey : key ∉ nodeMembers) :
    Json.lookup (nodeFields node) key = Json.lookup node.2 key := by
  have hown : Json.lookup node.1.fields key = none :=
    lookup_eq_none fun field hfield heq => hkey (heq ▸ node_fields_named node.1 field hfield)
  rw [nodeFields, lookup_append, hown]
  simp

theorem staleFieldNames_withoutMembers :
    staleFieldNames (withoutMembers names fields) names = [] := by
  rw [staleFieldNames, filter_eq_nil_iff]
  intro name hname
  rw [lookup_eq_none fun field hfield heq => ?_]
  · exact Bool.false_ne_true
  · have hkept := of_mem_filter hfield
    rw [heq] at hkept
    simp [hname] at hkept

theorem withoutMembers_withoutMembers :
    withoutMembers names (withoutMembers names fields) = withoutMembers names fields := by
  rw [withoutMembers, withoutMembers, filter_filter]
  simp

/-- The stale fields of a topology are among its other members. -/
theorem staleFieldNames_topology :
    staleFieldNames value.fields staleTopologyFields =
      staleFieldNames value.others staleTopologyFields := by
  have hforeign : ∀ field ∈ staleTopologyFields, field ∉ topologyMembers := by decide
  refine filter_congr fun field hfield => ?_
  rw [lookup_topologyOther value (hforeign field hfield)]

/-- The stale fields of a node are among its other members. -/
theorem staleFieldNames_node (node : ExecutorNodeV2 × JsonObject) :
    staleFieldNames (nodeFields node) staleNodeFields = staleFieldNames node.2 staleNodeFields := by
  have hforeign : ∀ field ∈ staleNodeFields, field ∉ nodeMembers := by decide
  refine filter_congr fun field hfield => ?_
  rw [lookup_nodeOther node (hforeign field hfield)]

/-! ## A second repair -/

theorem maybeString_of_maybeString {value : Option Json} {text : String}
    (h : maybeString value = some text) : maybeString (some (.str text)) = some text := by
  obtain ⟨untrimmed, huntrimmed, rfl⟩ := Option.map_eq_some_iff.mp h
  have hblank : jsTrim untrimmed ≠ "" := by
    unfold nonEmptyString? at huntrimmed
    split at huntrimmed
    · split at huntrimmed
      · cases huntrimmed
      · next hblank => exact Option.some.inj huntrimmed ▸ hblank
    · cases huntrimmed
  have htrim : jsTrim (jsTrim untrimmed) = jsTrim untrimmed := trimText_trimText _ _
  rw [maybeString, nonEmptyString?_eq_some (htrim.symm ▸ hblank), Option.map_some, htrim]

/-- The texts of a list of texts that was read before are these texts. -/
theorem stringArray_stringArray (value : Option Json) :
    stringArray (some (.arr ((stringArray value).map .str))) = stringArray value := by
  have hread : ∀ text ∈ stringArray value, maybeString (some (.str text)) = some text := by
    intro text htext
    unfold stringArray at htext
    split at htext
    · obtain ⟨item, -, hitem⟩ := mem_filterMap.mp ((OrderedSet.mem_ofList _ _).mp htext)
      exact maybeString_of_maybeString hitem
    · cases htext
  have hnodup : (stringArray value).Nodup := by
    unfold stringArray
    split
    · exact OrderedSet.nodup _
    · exact nodup_nil
  have hsame : ((stringArray value).map Json.str).filterMap (fun item => maybeString (some item)) =
      stringArray value := by
    rw [filterMap_map]
    exact (filterMap_congr hread).trans filterMap_some
  rw [stringArray, hsame, OrderedSet.elements_ofList hnodup]

theorem sanitizeMetadataForV2_again (metadata : Option JsonObject) :
    sanitizeMetadataForV2 topologyId nodeId path
        (sanitizeMetadataForV2 topologyId nodeId path metadata).1 =
      ((sanitizeMetadataForV2 topologyId nodeId path metadata).1, []) := by
  cases metadata with
  | none => rfl
  | some fields =>
    change sanitizeMetadataForV2 topologyId nodeId path
        (sanitizeMetadata topologyId nodeId path (.obj fields)).1 =
      ((sanitizeMetadata topologyId nodeId path (.obj fields)).1, [])
    cases hkept : (sanitizeMetadata topologyId nodeId path (.obj fields)).1 with
    | none => rfl
    | some kept => exact sanitizeMetadata_again _ hkept

/-- A repaired node is left as it is. -/
theorem repairNode_repairNode (node : ExecutorNodeV2) :
    repairNode topologyId (repairNode topologyId node).1 = ((repairNode topologyId node).1, []) := by
  have hmetadata := sanitizeMetadataForV2_again topologyId node.id s!"node({node.id}).metadata"
    node.metadata
  have hchips := stringArray_stringArray (node.definitionQuickChips.map fun chips =>
    .arr (chips.map .str))
  simp only [repairNode]
  rw [hmetadata]
  split
  · next hlength => rw [Option.map_some, hchips, if_pos hlength]
  · next hlength => rfl

theorem activeNodeIds_repairNode (nodes : List ExecutorNodeV2) :
    activeNodeIds (nodes.map fun node => (repairNode topologyId node).1) = activeNodeIds nodes := by
  rw [activeNodeIds, activeNodeIds, filter_map, map_map]
  rfl

/-- The repair of the nodes does not change which edges are kept. -/
theorem keepEdge_repairNode (nodes : List ExecutorNodeV2) :
    keepEdge (nodes.map fun node => (repairNode topologyId node).1) = keepEdge nodes := by
  funext edge
  unfold keepEdge
  rw [activeNodeIds_repairNode, map_map]
  rfl

theorem repaired_nodes :
    (repairExecutorTopologyV2ForPersistence topology).topology.nodes =
      topology.nodes.map fun node => (repairNode topology.id node).1 := by
  simp [repairExecutorTopologyV2ForPersistence]

theorem repaired_edges :
    (repairExecutorTopologyV2ForPersistence topology).topology.edges =
      topology.edges.filter (keepEdge topology.nodes) := rfl

theorem keepEdge_repaired :
    keepEdge (repairExecutorTopologyV2ForPersistence topology).topology.nodes =
      keepEdge topology.nodes := by
  rw [repaired_nodes, keepEdge_repairNode]

theorem repaired_again :
    (repairExecutorTopologyV2ForPersistence
        (repairExecutorTopologyV2ForPersistence topology).topology).topology =
      (repairExecutorTopologyV2ForPersistence topology).topology := by
  set repaired := (repairExecutorTopologyV2ForPersistence topology).topology with hrepaired
  have hnodes : repaired.nodes.map (fun node => (repairNode topology.id node).1) =
      repaired.nodes := by
    rw [hrepaired, repaired_nodes, map_map]
    refine map_congr_left fun node _ => ?_
    rw [Function.comp_apply, repairNode_repairNode]
  have hedges : repaired.edges.filter (keepEdge repaired.nodes) = repaired.edges := by
    rw [hrepaired, keepEdge_repaired, repaired_edges, filter_filter]
    simp
  have hmetadata : (sanitizeMetadataForV2 topology.id none "topology.metadata"
      repaired.metadata).1 = repaired.metadata := by
    rw [hrepaired, repairExecutorTopologyV2ForPersistence, sanitizeMetadataForV2_again]
  calc (repairExecutorTopologyV2ForPersistence repaired).topology
      = { repaired with
          metadata := (sanitizeMetadataForV2 topology.id none "topology.metadata"
            repaired.metadata).1
          nodes := repaired.nodes.map fun node => (repairNode topology.id node).1
          edges := repaired.edges.filter (keepEdge repaired.nodes) } := by
        simp [repairExecutorTopologyV2ForPersistence, hrepaired]
    _ = repaired := by rw [hmetadata, hnodes, hedges]

theorem repairedValue_nodes :
    (repairedValue value).nodes = value.nodes.map
      (Prod.map (fun node => (repairNode value.topology.id node).1)
        (withoutMembers staleNodeFields)) := by
  rw [TopologyValue.nodes, repairedValue, repaired_nodes, zip_map]
  rfl

/-- A repaired value is left as it is, and no issue is reported. -/
theorem repairTopologyValue_again :
    repairTopologyValue (repairTopologyValue value).1 = ((repairTopologyValue value).1, []) := by
  have hvalue : repairedValue (repairedValue value) = repairedValue value := by
    ext1
    · exact repaired_again value.topology
    · exact withoutMembers_withoutMembers _ _
    · simp [repairedValue, withoutMembers_withoutMembers]
  have hnode : ∀ node ∈ (repairedValue value).nodes,
      removedNodeFields value.topology.id node ++ (repairNode value.topology.id node.1).2 = [] := by
    rintro ⟨node, others⟩ hmem
    rw [repairedValue_nodes] at hmem
    obtain ⟨before, -, hbefore⟩ := mem_map.mp hmem
    cases hbefore
    rw [removedNodeFields, staleFieldNames_node, staleFieldNames_withoutMembers,
      repairNode_repairNode]
    rfl
  have hissues : repairIssues (repairedValue value) = [] := by
    have hfields : removedTopologyFields (repairedValue value) = [] := by
      rw [removedTopologyFields, staleFieldNames_topology]
      exact map_eq_nil_iff.mpr (staleFieldNames_withoutMembers _ _)
    have hmetadata : (sanitizeMetadataForV2 value.topology.id none "topology.metadata"
        (repairedValue value).topology.metadata).2 = [] := by
      exact congrArg Prod.snd (sanitizeMetadataForV2_again value.topology.id none
        "topology.metadata" value.topology.metadata)
    have hedges : removedEdges (repairedValue value).topology = [] := by
      rw [removedEdges, repairedValue, keepEdge_repaired, repaired_edges, filter_filter]
      simp
    exact append_eq_nil_iff.mpr ⟨append_eq_nil_iff.mpr ⟨append_eq_nil_iff.mpr
      ⟨hfields, hmetadata⟩, flatMap_eq_nil_iff.mpr hnode⟩, hedges⟩
  rw [repairTopologyValue, repairTopologyValue, hvalue, hissues]

/-! ## Issues that a repair is to prevent -/

/-- The codes of the issues that no repaired topology is to have. -/
def repairedCodes : List String :=
  ["stale_topology_field", "stale_node_field", "stale_metadata_field", "self_loop_edge",
    "invalid_edge_source", "invalid_edge_target", "archived_edge_endpoint"]

/-- None of the issues is one of those. -/
def Clean (issues : List ExecutorTopologyV2ValidationIssue) : Prop :=
  ∀ issue ∈ issues, issue.code ∉ repairedCodes

theorem clean_nil : Clean [] := nofun

theorem clean_append {first second : List ExecutorTopologyV2ValidationIssue} :
    Clean (first ++ second) ↔ Clean first ∧ Clean second := forall_mem_append

theorem clean_issueUnless (h : issue.code ∈ repairedCodes) :
    Clean (issueUnless passes issue) ↔ passes := by
  cases passes <;> simp [Clean, issueUnless, h]

theorem clean_issueUnless_of_other (h : issue.code ∉ repairedCodes) :
    Clean (issueUnless passes issue) := by
  cases passes <;> simp [Clean, issueUnless, h]

theorem clean_map {A : Type} {items : List A} {f : A → ExecutorTopologyV2ValidationIssue}
    (h : ∀ item, (f item).code ∈ repairedCodes) : Clean (items.map f) ↔ items = [] := by
  cases items with
  | nil => simp [clean_nil]
  | cons item rest => simp [Clean, h item]

theorem clean_validateMetadata {member : Option JsonObject} {path : String}
    {nodeId : Option String} :
    Clean (validateNoStaleMetadataKeys (member.map .obj) path nodeId) ↔
      ∀ fields ∈ member, ¬ StaleInside (.obj fields) := by
  cases member with
  | none => simp [validateNoStaleMetadataKeys, clean_nil]
  | some fields =>
    rw [Option.map_some, validateNoStaleMetadataKeys, Option.map_some, Option.getD_some]
    simp only [Option.mem_some_iff, forall_eq']
    rw [← staleMetadataIssues_eq_nil nodeId (.obj fields) path]
    refine ⟨fun hclean => eq_nil_iff_forall_not_mem.mpr fun issue hissue => ?_,
      fun hnil => hnil ▸ clean_nil⟩
    have hcode := code_of_mem_staleMetadataIssues nodeId (.obj fields) path issue hissue
    exact hclean issue hissue (hcode ▸ by decide)

theorem clean_validatePosition (value : Option Json) (path : String) (nodeId : Option String) :
    Clean (validatePosition value path nodeId) := by
  unfold validatePosition
  split
  · exact clean_append.mpr ⟨clean_issueUnless_of_other (by simp [repairedCodes]),
      clean_issueUnless_of_other (by simp [repairedCodes])⟩
  · simp [Clean, repairedCodes]

theorem clean_nodeIdIssues (path : String) (nodeId : Option String) :
    Clean (nodeIdIssues scan path nodeId) := by
  cases nodeId with
  | none => simp [Clean, nodeIdIssues, repairedCodes]
  | some nodeId => exact clean_issueUnless_of_other (by simp [repairedCodes])

theorem clean_nodeNameIssues (host : Host) (scan : NodeScan) (path : String)
    (nodeId : Option String) (status : Option ExecutorStatus) (name : Option Json) :
    Clean (nodeNameIssues host scan path nodeId status name).1 := by
  unfold nodeNameIssues
  split
  · simp [Clean, repairedCodes]
  · exact clean_nil
  · split
    · split
      · simp [Clean, repairedCodes]
      · exact clean_nil
    · exact clean_nil

/-! ## Nodes -/

theorem lookup_node_profile (node : ExecutorNodeV2) :
    Json.lookup node.fields "profile" = node.profile.map .obj := by
  simp [ExecutorNodeV2.fields]

theorem lookup_node_metadata (node : ExecutorNodeV2) :
    Json.lookup node.fields "metadata" = node.metadata.map .obj := by
  simp [ExecutorNodeV2.fields]

/-- What of a node raises issues that the repair is to prevent. -/
theorem clean_validateNode (host : Host) (scan : NodeScan) (index : ℕ)
    (hforeign : ∀ member ∈ node.2, member.1 ∉ nodeMembers) :
    Clean (validateNode host scan index (.obj (nodeFields node))).1 ↔
      staleFieldNames node.2 staleNodeFields = [] ∧
        (∀ profile ∈ node.1.profile, ¬ StaleInside (.obj profile)) ∧
        ∀ metadata ∈ node.1.metadata, ¬ StaleInside (.obj metadata) := by
  have hprofile : Json.lookup (nodeFields node) "profile" = node.1.profile.map .obj :=
    (lookup_nodeMember hforeign (by decide)).trans (lookup_node_profile node.1)
  have hmetadata : Json.lookup (nodeFields node) "metadata" = node.1.metadata.map .obj :=
    (lookup_nodeMember hforeign (by decide)).trans (lookup_node_metadata node.1)
  unfold validateNode
  dsimp only
  rw [hprofile, hmetadata, staleFieldNames_node]
  simp only [clean_append, clean_nodeIdIssues, clean_nodeNameIssues, clean_validatePosition,
    clean_validateMetadata, true_and, and_assoc, clean_issueUnless_of_other,
    repairedCodes, mem_cons, not_mem_nil, String.reduceEq, or_false, not_false_eq_true]
  exact and_congr_left' (clean_map fun _ => by simp [repairedCodes])

/-- The status of the last node with an id. -/
def lastStatus (nodes : List ExecutorNodeV2) (id : String) : Option ExecutorStatus :=
  (nodes.reverse.find? fun node => node.id = id).map (·.status)

theorem lastStatus_cons (node : ExecutorNodeV2) (rest : List ExecutorNodeV2) (id : String) :
    lastStatus (node :: rest) id =
      (lastStatus rest id <|> if node.id = id then some node.status else none) := by
  unfold lastStatus
  rw [reverse_cons, find?_append]
  cases rest.reverse.find? fun node => node.id = id with
  | some found => rfl
  | none => by_cases h : node.id = id <;> simp [h]

theorem lastStatus_repairNode (nodes : List ExecutorNodeV2) (id : String) :
    lastStatus (nodes.map fun node => (repairNode topologyId node).1) id = lastStatus nodes id := by
  rw [lastStatus, lastStatus, ← map_reverse, find?_map, Option.map_map]
  rfl

/-- What the scan of a node adds to what is known of the nodes. -/
theorem scan_validateNode (host : Host) (scan : NodeScan) (index : ℕ)
    (hforeign : ∀ member ∈ node.2, member.1 ∉ nodeMembers) :
    (validateNode host scan index (.obj (nodeFields node))).2.nodeIds =
        (if jsTrim node.1.id = "" then scan.nodeIds else scan.nodeIds.add node.1.id) ∧
      (validateNode host scan index (.obj (nodeFields node))).2.nodeStatuses =
        if jsTrim node.1.id = "" then scan.nodeStatuses
        else scan.nodeStatuses.set node.1.id node.1.status := by
  have hid : Json.lookup (nodeFields node) "id" = some (.str node.1.id) :=
    (lookup_nodeMember hforeign (by decide)).trans (lookup_node_id node.1)
  have hstatus : Json.lookup (nodeFields node) "status" = some (.str node.1.status.text) :=
    (lookup_nodeMember hforeign (by decide)).trans (lookup_node_status node.1)
  unfold validateNode
  dsimp only
  rw [hid, hstatus, executorStatus?_text]
  by_cases hblank : jsTrim node.1.id = ""
  · rw [nonEmptyString?, if_pos hblank, if_pos hblank, if_pos hblank]
    exact ⟨rfl, rfl⟩
  · rw [nonEmptyString?_eq_some hblank, if_neg hblank, if_neg hblank]
    exact ⟨rfl, rfl⟩

/-- What the validator knows of the nodes after it has seen them: the ids that are not blank,
and under each the status of its last node. -/
theorem scan_validateNodes (host : Host)
    (hforeign : ∀ node ∈ nodes, ∀ member ∈ node.2, member.1 ∉ nodeMembers) (scan : NodeScan)
    (index : ℕ) {id : String} (hid : jsTrim id ≠ "") :
    (id ∈ (validateNodes host scan index (nodes.map fun node => .obj (nodeFields node))).2.nodeIds ↔
      id ∈ scan.nodeIds ∨ id ∈ (nodes.map Prod.fst).map (·.id)) ∧
    (validateNodes host scan index
        (nodes.map fun node => .obj (nodeFields node))).2.nodeStatuses.get? id =
      (lastStatus (nodes.map Prod.fst) id <|> scan.nodeStatuses.get? id) := by
  induction nodes generalizing scan index with
  | nil => simp [validateNodes, lastStatus]
  | cons node rest ih =>
    obtain ⟨hnode, hrest⟩ := forall_mem_cons.mp hforeign
    obtain ⟨hids, hstatuses⟩ := scan_validateNode host scan index hnode
    generalize hchecked : validateNode host scan index (.obj (nodeFields node)) = checked
      at hids hstatuses
    obtain ⟨ihids, ihstatuses⟩ := ih hrest checked.2 (index + 1)
    rw [map_cons, validateNodes, hchecked]
    rw [ihids, ihstatuses, hids, hstatuses, map_cons, map_cons, lastStatus_cons]
    by_cases hblank : jsTrim node.1.id = ""
    · have hne : node.1.id ≠ id := fun heq => hid (heq ▸ hblank)
      rw [if_pos hblank, if_pos hblank, if_neg hne, mem_cons]
      simp [Ne.symm hne]
    · rw [if_neg hblank, if_neg hblank, OrderedSet.mem_add, OrderedMap.get?_set, mem_cons]
      refine ⟨by rw [or_assoc, or_left_comm], ?_⟩
      cases lastStatus (rest.map Prod.fst) id <;> by_cases heq : node.1.id = id <;> simp [heq]

theorem clean_validateNodes (host : Host)
    (hforeign : ∀ node ∈ nodes, ∀ member ∈ node.2, member.1 ∉ nodeMembers) (scan : NodeScan)
    (index : ℕ) :
    Clean (validateNodes host scan index (nodes.map fun node => .obj (nodeFields node))).1 ↔
      ∀ node ∈ nodes, staleFieldNames node.2 staleNodeFields = [] ∧
        (∀ profile ∈ node.1.profile, ¬ StaleInside (.obj profile)) ∧
        ∀ metadata ∈ node.1.metadata, ¬ StaleInside (.obj metadata) := by
  induction nodes generalizing scan index with
  | nil => simp [validateNodes, clean_nil]
  | cons node rest ih =>
    obtain ⟨hnode, hrest⟩ := forall_mem_cons.mp hforeign
    rw [map_cons, validateNodes, clean_append, clean_validateNode host scan index hnode,
      ih hrest, forall_mem_cons]

/-! ## Edges -/

/-- May an edge end at this id, as the validator reads the nodes? -/
structure Endpoint (scan : NodeScan) (id : String) : Prop where
  named : jsTrim id ≠ ""
  known : id ∈ scan.nodeIds
  notArchived : scan.nodeStatuses.get? id ≠ some .archived

theorem endpoint_iff {scan : NodeScan} {id : String} :
    Endpoint scan id ↔
      (nonEmptyString? (some (.str id))).any (· ∈ scan.nodeIds) ∧
        (!(nonEmptyString? (some (.str id))).any fun nodeId =>
          scan.nodeStatuses.get? nodeId = some .archived) := by
  by_cases hblank : jsTrim id = ""
  · rw [nonEmptyString?, if_pos hblank]
    exact iff_of_false (fun h => h.named hblank) fun h => Bool.false_ne_true h.1
  · rw [nonEmptyString?_eq_some hblank]
    simp only [Option.any_some, decide_eq_true_eq, Bool.not_eq_true', decide_eq_false_iff_not]
    exact ⟨fun h => ⟨h.known, h.notArchived⟩, fun h => ⟨hblank, h.1, h.2⟩⟩

/-- What of an edge raises issues that the repair is to prevent. -/
theorem clean_validateEdge (edgeIds : OrderedSet String) (index : ℕ) (edge : ExecutorEdgeV2) :
    Clean (validateEdge scan edgeIds index edge.toJson).1 ↔
      Endpoint scan edge.sourceNodeId ∧ Endpoint scan edge.targetNodeId ∧
        edge.sourceNodeId ≠ edge.targetNodeId := by
  have hloop : ((nonEmptyString? (some (.str edge.sourceNodeId))).isNone ||
      nonEmptyString? (some (.str edge.sourceNodeId)) ≠
        nonEmptyString? (some (.str edge.targetNodeId))) ↔
      (jsTrim edge.sourceNodeId ≠ "" → edge.sourceNodeId ≠ edge.targetNodeId) := by
    by_cases hsource : jsTrim edge.sourceNodeId = ""
    · simp [nonEmptyString?, hsource]
    · rw [nonEmptyString?_eq_some hsource]
      by_cases htarget : jsTrim edge.targetNodeId = ""
      · have hne : edge.sourceNodeId ≠ edge.targetNodeId := fun heq => hsource (heq ▸ htarget)
        simp [nonEmptyString?, htarget, hne]
      · simp [nonEmptyString?_eq_some htarget, hsource]
  rw [ExecutorEdgeV2.toJson, validateEdge, lookup_edge_id, lookup_edge_source, lookup_edge_target]
  simp only [clean_append]
  constructor
  · rintro ⟨⟨⟨⟨⟨⟨⟨-, -⟩, -⟩, hsource⟩, htarget⟩, hdistinct⟩, hsourceStatus⟩, htargetStatus⟩
    have hsource := endpoint_iff.mpr ⟨(clean_issueUnless (by simp [repairedCodes])).mp hsource,
      (clean_issueUnless (by simp [repairedCodes])).mp hsourceStatus⟩
    have htarget := endpoint_iff.mpr ⟨(clean_issueUnless (by simp [repairedCodes])).mp htarget,
      (clean_issueUnless (by simp [repairedCodes])).mp htargetStatus⟩
    exact ⟨hsource, htarget,
      hloop.mp ((clean_issueUnless (by simp [repairedCodes])).mp hdistinct) hsource.named⟩
  · rintro ⟨hsource, htarget, hdistinct⟩
    obtain ⟨hsource, hsourceStatus⟩ := endpoint_iff.mp hsource
    obtain ⟨htarget, htargetStatus⟩ := endpoint_iff.mp htarget
    refine ⟨⟨⟨⟨⟨⟨⟨?_, ?_⟩, ?_⟩, ?_⟩, ?_⟩, ?_⟩, ?_⟩, ?_⟩
    · split
      · simp [Clean, repairedCodes]
      · exact clean_issueUnless_of_other (by simp [repairedCodes])
    · exact clean_issueUnless_of_other (by simp [repairedCodes])
    · exact clean_issueUnless_of_other (by simp [repairedCodes])
    · exact (clean_issueUnless (by simp [repairedCodes])).mpr hsource
    · exact (clean_issueUnless (by simp [repairedCodes])).mpr htarget
    · exact (clean_issueUnless (by simp [repairedCodes])).mpr (hloop.mpr fun _ => hdistinct)
    · exact (clean_issueUnless (by simp [repairedCodes])).mpr hsourceStatus
    · exact (clean_issueUnless (by simp [repairedCodes])).mpr htargetStatus

theorem clean_validateEdges (edgeIds : OrderedSet String) (index : ℕ) (edges : List ExecutorEdgeV2)
    :
    Clean (validateEdges scan edgeIds index (edges.map ExecutorEdgeV2.toJson)) ↔
      ∀ edge ∈ edges, Endpoint scan edge.sourceNodeId ∧ Endpoint scan edge.targetNodeId ∧
        edge.sourceNodeId ≠ edge.targetNodeId := by
  induction edges generalizing edgeIds index with
  | nil => simp [validateEdges, clean_nil]
  | cons edge rest ih =>
    rw [map_cons, validateEdges, clean_append, clean_validateEdge, ih, forall_mem_cons]

/-! ## Topologies -/

/-- May the repair keep an edge that ends at this id? The id is not blank, and the last node
with this id is active. -/
structure LiveEndpoint (nodes : List ExecutorNodeV2) (id : String) : Prop where
  named : jsTrim id ≠ ""
  active : lastStatus nodes id = some .active

theorem mem_ids_iff_lastStatus (nodes : List ExecutorNodeV2) (id : String) :
    id ∈ nodes.map (·.id) ↔ (lastStatus nodes id).isSome := by
  rw [lastStatus, Option.isSome_map, find?_isSome]
  simp

/-- An edge may end where the last node with the id is active. -/
theorem endpoint_validateNodes (host : Host) (id : String) :
    Endpoint (validateNodes host {} 0 (value.nodes.map fun node => .obj (nodeFields node))).2 id ↔
      LiveEndpoint value.topology.nodes id := by
  have hnodes : value.nodes.map Prod.fst = value.topology.nodes := map_fst_zip value.aligned.ge
  have hscan (hid : jsTrim id ≠ "") := scan_validateNodes host
    (fun node hnode => nodeForeign_of_mem value hnode) {} 0 hid
  rw [hnodes, mem_ids_iff_lastStatus] at hscan
  constructor
  · rintro ⟨hnamed, hknown, hstatus⟩
    obtain ⟨hids, hstatuses⟩ := hscan hnamed
    have hsome := (hids.mp hknown).resolve_left (OrderedSet.mem_empty id)
    obtain ⟨status, hlast⟩ := Option.isSome_iff_exists.mp hsome
    rw [hstatuses, hlast] at hstatus
    cases status with
    | active => exact ⟨hnamed, hlast⟩
    | archived => exact absurd rfl hstatus
  · rintro ⟨hnamed, hlast⟩
    obtain ⟨hids, hstatuses⟩ := hscan hnamed
    refine ⟨hnamed, hids.mpr (Or.inr (by rw [hlast]; rfl)), ?_⟩
    rw [hstatuses, hlast]
    exact fun heq => by cases heq

theorem clean_topologyFieldIssues :
    Clean (topologyFieldIssues value.fields) ↔
      staleFieldNames value.others staleTopologyFields = [] ∧
        ∀ metadata ∈ value.topology.metadata, ¬ StaleInside (.obj metadata) := by
  have hmetadata : Json.lookup value.fields "metadata" = value.topology.metadata.map .obj := by
    rw [lookup_topologyMember value (by decide) (by decide)]
    simp [ExecutorTopologyV2.fields]
  rw [topologyFieldIssues, staleFieldNames_topology, hmetadata]
  simp only [clean_append]
  constructor
  · rintro ⟨⟨-, hfields⟩, hmetadata⟩
    exact ⟨(clean_map fun _ => by simp [repairedCodes]).mp hfields,
      clean_validateMetadata.mp hmetadata⟩
  · rintro ⟨hfields, hmetadata⟩
    refine ⟨⟨⟨⟨⟨⟨⟨⟨?_, ?_⟩, ?_⟩, ?_⟩, ?_⟩, ?_⟩, ?_⟩,
      (clean_map fun _ => by simp [repairedCodes]).mpr hfields⟩,
      clean_validateMetadata.mpr hmetadata⟩
    all_goals exact clean_issueUnless_of_other (by simp [repairedCodes])

/-- What of a topology raises issues that the repair is to prevent. -/
theorem clean_validateExecutorTopologyV2 (host : Host) :
    Clean (validateExecutorTopologyV2 host value.toJson).issues ↔
      (staleFieldNames value.others staleTopologyFields = [] ∧
        ∀ metadata ∈ value.topology.metadata, ¬ StaleInside (.obj metadata)) ∧
      (∀ node ∈ value.nodes, staleFieldNames node.2 staleNodeFields = [] ∧
        (∀ profile ∈ node.1.profile, ¬ StaleInside (.obj profile)) ∧
        ∀ metadata ∈ node.1.metadata, ¬ StaleInside (.obj metadata)) ∧
      ∀ edge ∈ value.topology.edges, LiveEndpoint value.topology.nodes edge.sourceNodeId ∧
        LiveEndpoint value.topology.nodes edge.targetNodeId ∧
        edge.sourceNodeId ≠ edge.targetNodeId := by
  have hedges : Json.lookup value.fields "edges" =
      some (.arr (value.topology.edges.map ExecutorEdgeV2.toJson)) :=
    (lookup_topologyMember value (by decide) (by decide)).trans
      (lookup_topology_edges value.topology)
  rw [TopologyValue.toJson, validateExecutorTopologyV2, lookup_topologyNodes, hedges]
  simp only [arrayItems?, Option.getD_some, Option.isSome_some, clean_append,
    clean_topologyFieldIssues, clean_validateEdges, endpoint_validateNodes,
    clean_validateNodes host (fun node hnode => nodeForeign_of_mem value hnode)]
  rw [and_assoc, and_assoc, and_assoc]
  refine and_congr_right' ?_
  rw [← and_assoc, and_iff_right ⟨clean_nil, clean_nil⟩]

/-- The repair of the value does all that the validator demands: it copies no key that is out
of date, and the edges it keeps run between ids whose last nodes are active. -/
structure Repairable (value : TopologyValue) : Prop where
  metadata : ∀ fields ∈ value.topology.metadata, ¬ KeepsStale fields
  profile : ∀ node ∈ value.topology.nodes, ∀ fields ∈ node.profile, ¬ StaleInside (.obj fields)
  nodeMetadata : ∀ node ∈ value.topology.nodes, ∀ fields ∈ node.metadata, ¬ KeepsStale fields
  edges : ∀ edge ∈ value.topology.edges, keepEdge value.topology.nodes edge →
    LiveEndpoint value.topology.nodes edge.sourceNodeId ∧
      LiveEndpoint value.topology.nodes edge.targetNodeId

/-- The repaired value has none of the issues that the repair is to prevent, and a second
repair changes nothing and reports nothing. -/
structure RepairSound (host : Host) (value : TopologyValue) : Prop where
  clean : Clean (validateExecutorTopologyV2 host (repairTopologyValue value).1.toJson).issues
  again : repairTopologyValue (repairTopologyValue value).1 = ((repairTopologyValue value).1, [])

theorem liveEndpoint_repaired (id : String) :
    LiveEndpoint (repairExecutorTopologyV2ForPersistence topology).topology.nodes id ↔
      LiveEndpoint topology.nodes id := by
  rw [repaired_nodes]
  constructor
  · rintro ⟨hnamed, hactive⟩
    exact ⟨hnamed, lastStatus_repairNode topology.id topology.nodes id ▸ hactive⟩
  · rintro ⟨hnamed, hactive⟩
    exact ⟨hnamed, (lastStatus_repairNode topology.id topology.nodes id).trans hactive⟩

theorem clean_repaired_nodes :
    (∀ node ∈ (repairedValue value).nodes, staleFieldNames node.2 staleNodeFields = [] ∧
        (∀ profile ∈ node.1.profile, ¬ StaleInside (.obj profile)) ∧
        ∀ metadata ∈ node.1.metadata, ¬ StaleInside (.obj metadata)) ↔
      ∀ node ∈ value.topology.nodes, (∀ fields ∈ node.profile, ¬ StaleInside (.obj fields)) ∧
        ∀ fields ∈ node.metadata, ¬ KeepsStale fields := by
  have hnodes : value.nodes.map Prod.fst = value.topology.nodes := map_fst_zip value.aligned.ge
  rw [repairedValue_nodes, forall_mem_map, ← hnodes, forall_mem_map]
  refine forall₂_congr fun node _ => ?_
  rw [Prod.map_snd, staleFieldNames_withoutMembers, and_iff_right rfl, Prod.map_fst]
  exact and_congr_right' (not_staleInside_sanitizeMetadataForV2 node.1.metadata _)

theorem clean_repaired_edges :
    (∀ edge ∈ (repairedValue value).topology.edges,
        LiveEndpoint (repairedValue value).topology.nodes edge.sourceNodeId ∧
        LiveEndpoint (repairedValue value).topology.nodes edge.targetNodeId ∧
        edge.sourceNodeId ≠ edge.targetNodeId) ↔
      ∀ edge ∈ value.topology.edges, keepEdge value.topology.nodes edge →
        LiveEndpoint value.topology.nodes edge.sourceNodeId ∧
          LiveEndpoint value.topology.nodes edge.targetNodeId := by
  rw [repairedValue, repaired_edges]
  simp only [mem_filter, and_imp, liveEndpoint_repaired]
  refine forall₃_congr fun edge _ hkeep => ?_
  have hdistinct : edge.sourceNodeId ≠ edge.targetNodeId := by
    simp only [keepEdge, Bool.and_eq_true, decide_eq_true_eq] at hkeep
    exact hkeep.1.1.1.1
  rw [and_iff_left hdistinct]

/-- The repair does what the validator demands if and only if it copies no key that is out of
date and every edge it keeps runs between ids whose last nodes are active. -/
theorem repairSound_iff (host : Host) : RepairSound host value ↔ Repairable value := by
  have hmetadata : (∀ metadata ∈ (repairedValue value).topology.metadata,
      ¬ StaleInside (.obj metadata)) ↔ ∀ fields ∈ value.topology.metadata, ¬ KeepsStale fields :=
    not_staleInside_sanitizeMetadataForV2 value.topology.metadata "topology.metadata"
  have hclean : Clean (validateExecutorTopologyV2 host (repairedValue value).toJson).issues ↔
      (∀ fields ∈ value.topology.metadata, ¬ KeepsStale fields) ∧
      (∀ node ∈ value.topology.nodes, (∀ fields ∈ node.profile, ¬ StaleInside (.obj fields)) ∧
        ∀ fields ∈ node.metadata, ¬ KeepsStale fields) ∧
      ∀ edge ∈ value.topology.edges, keepEdge value.topology.nodes edge →
        LiveEndpoint value.topology.nodes edge.sourceNodeId ∧
          LiveEndpoint value.topology.nodes edge.targetNodeId := by
    rw [clean_validateExecutorTopologyV2, hmetadata, clean_repaired_nodes, clean_repaired_edges]
    refine and_congr_left' (and_iff_right ?_)
    exact staleFieldNames_withoutMembers staleTopologyFields value.others
  constructor
  · rintro ⟨hissues, -⟩
    obtain ⟨hfields, hnodes, hedges⟩ := hclean.mp hissues
    exact ⟨hfields, fun node hnode => (hnodes node hnode).1,
      fun node hnode => (hnodes node hnode).2, hedges⟩
  · rintro ⟨hfields, hprofile, hnodes, hedges⟩
    exact ⟨hclean.mpr ⟨hfields, fun node hnode => ⟨hprofile node hnode, hnodes node hnode⟩, hedges⟩,
      repairTopologyValue_again value⟩

/-- A topology whose metadata has a note that is copied as it is. -/
def notedTopology : TopologyValue where
  topology :=
    { id := "topology:notes", name := "Notes", status := .active, activeVersion := none, nodes := []
      edges := [], metadata := some [("note", .obj [("workspace", .null)])]
      createdAt := .number (.ofNat 0), updatedAt := .number (.ofNat 0) }
  others := []
  nodeOthers := []
  aligned := rfl
  foreign := by simp
  nodeForeign := by simp

/-- The key in the note is out of date, and it is still there after the repair. -/
theorem notedTopology_not_repaired : ¬ RepairSound ⟨fun _ _ => 0, id⟩ notedTopology := by
  intro hsound
  obtain ⟨⟨-, hmetadata⟩, -⟩ :=
    (clean_validateExecutorTopologyV2 (repairedValue notedTopology) _).mp hsound.clean
  have hnone := (not_staleInside_sanitizeMetadataForV2 notedTopology.topology.metadata
    "topology.metadata").mp hmetadata _ rfl
  have hlisted {key : String} {value : Json} (hkey : Json.arrayIndex? key = none) :
      (key, value) ∈ Json.entries [(key, value)] := by
    have hnames : ∀ name ∈ [(key, value)].map Prod.fst, Json.arrayIndex? name = none := by
      simpa using hkey
    rw [Json.entries_eq_self (.of_names (by simp) hnames)]
    exact mem_singleton_self _
  have hinside : StaleInside (.obj [("workspace", .null)]) := .key (hlisted (by decide)) (by decide)
  exact hnone (.member (hlisted (by decide)) ⟨by decide, by simp, by simp, by simp⟩ hinside)

end Nobie.Topology
