/-
# The store of memory documents

A document belongs to a scope and an owner and is cut into chunks. The same text is stored
once for a scope and an owner. An embedding belongs to one chunk, and there is at most one
embedding of a model for a text checksum, whoever the chunks with that text belong to.
-/

import Mathlib.Data.List.Sort
import Nobie.Foundation.JsString
import Nobie.Foundation.Transition

namespace Nobie.Memory

open Foundation List JsString

/-! ## Rows -/

inductive MemoryScope
  | global | session | task | artifact | diagnostic | longTerm | shortTerm | schedule
  | flashFeedback
  deriving DecidableEq

def MemoryScope.text : MemoryScope → String
  | .global => "global"
  | .session => "session"
  | .task => "task"
  | .artifact => "artifact"
  | .diagnostic => "diagnostic"
  | .longTerm => "long-term"
  | .shortTerm => "short-term"
  | .schedule => "schedule"
  | .flashFeedback => "flash-feedback"

/-- What the searches read of a document's metadata. -/
structure DocumentMetadata where
  (approved reviewApproved requiresReview : Bool)
  expiresAt : Option ℕ

structure MemoryDocument where
  id : ℕ
  scope : MemoryScope
  (ownerId sourceType : JsString)
  (sourceRef title : Option JsString)
  (rawText checksum : JsString)
  metadata : DocumentMetadata

structure MemoryChunk where
  (id documentId : ℕ)
  scope : MemoryScope
  ownerId : JsString
  ordinal : ℕ
  (content checksum : JsString)
  updatedAt : ℕ

/-- Provider, model and dimensions of an embedding. -/
structure EmbeddingModel where
  (provider model : JsString)
  dimensions : ℕ
  deriving DecidableEq

structure MemoryEmbedding where
  chunkId : ℕ
  model : EmbeddingModel
  textChecksum : JsString
  vector : List ℚ

/-- The columns of the unique constraint. -/
def MemoryEmbedding.key (embedding : MemoryEmbedding) : EmbeddingModel × JsString :=
  (embedding.model, embedding.textChecksum)

/-- The tables with their primary keys, the unique embeddings and the references. An id is
not given twice: `nextId` is the next one. -/
structure MemoryStore where
  documents : List MemoryDocument
  chunks : List MemoryChunk
  embeddings : List MemoryEmbedding
  nextId : ℕ
  documentIds : (documents.map MemoryDocument.id).Nodup
  chunkIds : (chunks.map MemoryChunk.id).Nodup
  embeddingKeys : (embeddings.map MemoryEmbedding.key).Nodup
  givenDocumentIds : ∀ document ∈ documents, document.id < nextId
  givenChunkIds : ∀ chunk ∈ chunks, chunk.id < nextId
  chunkDocument : ∀ chunk ∈ chunks, chunk.documentId ∈ documents.map MemoryDocument.id
  embeddingChunk : ∀ embedding ∈ embeddings, embedding.chunkId ∈ chunks.map MemoryChunk.id

def MemoryStore.empty : MemoryStore where
  documents := []
  chunks := []
  embeddings := []
  nextId := 0
  documentIds := .nil
  chunkIds := .nil
  embeddingKeys := .nil
  givenDocumentIds := by simp
  givenChunkIds := by simp
  chunkDocument := by simp
  embeddingChunk := by simp

section Store

variable (store : MemoryStore) (ownerId : JsString)

/-- The chunks of a document, by their ordinal. -/
def MemoryStore.chunksOf (documentId : ℕ) : List MemoryChunk :=
  store.chunks.filter fun chunk => chunk.documentId = documentId

/-! ## Storing a document -/

structure ChunkInput where
  (content checksum : JsString)

structure StoreMemoryDocumentInput where
  scope : MemoryScope
  ownerId : Option JsString
  sourceType : JsString
  (sourceRef title : Option JsString)
  (rawText checksum : JsString)
  metadata : DocumentMetadata
  chunks : List ChunkInput
  now : ℕ

inductive MemoryError
  | emptyText
  | ownerRequired (scope : MemoryScope)

def MemoryError.message : MemoryError → String
  | .emptyText => "memory document text is empty"
  | .ownerRequired scope => scope.text ++ " memory requires an owner id"

def resolveMemoryOwnerId (scope : MemoryScope) (ownerId : Option JsString) :
    Except MemoryError JsString :=
  let normalized := trim (ownerId.getD [])
  if normalized ≠ [] then .ok normalized
  else if scope = .global ∨ scope = .longTerm then .ok (ofString "global")
  else .error (.ownerRequired scope)

variable (input : StoreMemoryDocumentInput)

/-- The chunks of a new document, their ids counted on from one. -/
def newChunks (ownerId : JsString) (documentId firstId : ℕ) : List MemoryChunk :=
  input.chunks.zipIdx.map fun (chunk, ordinal) =>
    { id := firstId + ordinal
      documentId
      scope := input.scope
      ownerId
      ordinal
      content := chunk.content
      checksum := chunk.checksum
      updatedAt := input.now }

theorem mem_newChunks {input : StoreMemoryDocumentInput} {ownerId : JsString}
    {documentId firstId : ℕ} {chunk : MemoryChunk}
    (h : chunk ∈ newChunks input ownerId documentId firstId) :
    chunk.documentId = documentId ∧ chunk.scope = input.scope ∧ chunk.ownerId = ownerId ∧
      firstId ≤ chunk.id ∧ chunk.id < firstId + input.chunks.length := by
  obtain ⟨⟨given, ordinal⟩, hmem, rfl⟩ := mem_map.mp h
  have hlt := (mem_zipIdx' hmem).1
  exact ⟨rfl, rfl, rfl, Nat.le_add_right _ _, Nat.add_lt_add_left hlt _⟩

theorem newChunks_ids (ownerId : JsString) (documentId firstId : ℕ) :
    (newChunks input ownerId documentId firstId).map MemoryChunk.id =
      (List.range input.chunks.length).map (firstId + ·) := by
  unfold newChunks
  rw [map_map, range_eq_range', ← zipIdx_map_snd 0 input.chunks, map_map]
  rfl

def newDocument (ownerId : JsString) (id : ℕ) : MemoryDocument where
  id
  scope := input.scope
  ownerId
  sourceType := input.sourceType
  sourceRef := input.sourceRef
  title := input.title
  rawText := input.rawText
  checksum := input.checksum
  metadata := input.metadata

/-- The transaction that adds a document with its chunks. -/
def MemoryStore.addDocument (ownerId : JsString) : MemoryStore where
  documents := store.documents ++ [newDocument input ownerId store.nextId]
  chunks := store.chunks ++ newChunks input ownerId store.nextId (store.nextId + 1)
  embeddings := store.embeddings
  nextId := store.nextId + 1 + input.chunks.length
  documentIds := by
    rw [List.map_append, List.map_singleton]
    refine store.documentIds.append (List.nodup_singleton _)
      (List.disjoint_singleton.mpr fun hmem => ?_)
    obtain ⟨document, hdocument, hid⟩ := List.mem_map.mp hmem
    exact absurd hid (store.givenDocumentIds document hdocument).ne
  chunkIds := by
    rw [List.map_append, newChunks_ids]
    refine store.chunkIds.append
      (List.nodup_range.map fun _ _ hsame => Nat.add_left_cancel hsame) ?_
    intro id hold hnew
    obtain ⟨chunk, hchunk, rfl⟩ := List.mem_map.mp hold
    obtain ⟨ordinal, -, hid⟩ := List.mem_map.mp hnew
    have hlt := store.givenChunkIds chunk hchunk
    omega
  embeddingKeys := store.embeddingKeys
  givenDocumentIds := by
    intro document hdocument
    obtain hold | hnew := List.mem_append.mp hdocument
    · have hlt := store.givenDocumentIds document hold
      omega
    · obtain rfl := List.mem_singleton.mp hnew
      change store.nextId < _
      omega
  givenChunkIds := by
    intro chunk hchunk
    obtain hold | hnew := List.mem_append.mp hchunk
    · have hlt := store.givenChunkIds chunk hold
      omega
    · have hlt := (mem_newChunks hnew).2.2.2.2
      omega
  chunkDocument := by
    intro chunk hchunk
    rw [List.map_append]
    obtain hold | hnew := List.mem_append.mp hchunk
    · exact List.mem_append_left _ (store.chunkDocument chunk hold)
    · rw [(mem_newChunks hnew).1]
      exact List.mem_append_cons_self
  embeddingChunk := by
    intro embedding hembedding
    rw [List.map_append]
    exact List.mem_append_left _ (store.embeddingChunk embedding hembedding)

structure StoreMemoryDocumentResult where
  documentId : ℕ
  chunkIds : List ℕ
  deduplicated : Bool

/-- The document that holds the text already. -/
def MemoryStore.existing? (ownerId : JsString) : Option MemoryDocument :=
  store.documents.find? fun document =>
    document.scope = input.scope ∧ document.ownerId = ownerId ∧ document.checksum = input.checksum

/-- `storeMemoryDocument` of the database. -/
def storeMemoryDocumentRecord : Except MemoryError (MemoryStore × StoreMemoryDocumentResult) :=
  match resolveMemoryOwnerId input.scope input.ownerId with
  | .error error => .error error
  | .ok ownerId =>
    match store.existing? input ownerId with
    | some document =>
      .ok (store,
        { documentId := document.id
          chunkIds := (store.chunksOf document.id).map MemoryChunk.id
          deduplicated := true })
    | none =>
      .ok (store.addDocument input ownerId,
        { documentId := store.nextId
          chunkIds := (newChunks input ownerId store.nextId (store.nextId + 1)).map MemoryChunk.id
          deduplicated := false })

/-! ## Documents from texts -/

/-- `value.lastIndexOf("\n", from)`. -/
def lastLineBreak (text : JsString) (limit : ℕ) : Option ℕ :=
  ((List.range (min (limit + 1) text.length)).filter fun index =>
    text[index]? = some (codeUnit 10)).getLast?

/-- The loop of `chunkMemoryText`, from a place in the text on. -/
def chunksFrom (text : JsString) : ℕ → ℕ → List JsString
  | 0, _ => []
  | fuel + 1, start =>
    if text.length ≤ start then []
    else
      let hardEnd := min (start + 1600) text.length
      let stop :=
        match lastLineBreak text hardEnd with
        | some softBreak => if start + 960 < softBreak then softBreak else hardEnd
        | none => hardEnd
      let chunk := trim ((text.drop start).take (stop - start))
      let rest := if text.length ≤ stop then [] else chunksFrom text fuel (stop - 160)
      if chunk = [] then rest else chunk :: rest

/-- `chunkMemoryText`. The start moves on in every turn, so a turn for every unit of the text
is enough. -/
def chunkMemoryText (value : JsString) : List JsString :=
  let normalized := trim value
  if normalized = [] then []
  else if normalized.length ≤ 1600 then [normalized]
  else chunksFrom normalized normalized.length 0

structure StoreMemoryDocumentParams where
  rawText : JsString
  scope : MemoryScope
  (ownerId scheduleId : Option JsString)
  sourceType : JsString
  (sourceRef title : Option JsString)
  metadata : DocumentMetadata
  now : ℕ

/-- What `storeMemoryDocument` hands to the database. -/
def documentInput (checksumText : JsString → JsString) (params : StoreMemoryDocumentParams) :
    StoreMemoryDocumentInput where
  scope := params.scope
  ownerId := params.ownerId.or params.scheduleId
  sourceType := params.sourceType
  sourceRef := params.sourceRef
  title := params.title
  rawText := trim params.rawText
  checksum := checksumText (trim params.rawText)
  metadata := params.metadata
  chunks := (chunkMemoryText (trim params.rawText)).map fun content =>
    ⟨content, checksumText content⟩
  now := params.now

/-- `storeMemoryDocument`, up to the embeddings. -/
def storeMemoryDocument (checksumText : JsString → JsString) (store : MemoryStore)
    (params : StoreMemoryDocumentParams) :
    Except MemoryError (MemoryStore × StoreMemoryDocumentResult) :=
  if trim params.rawText = [] then .error .emptyText
  else storeMemoryDocumentRecord store (documentInput checksumText params)

/-! ## Embeddings -/

section Embeddings

variable (store : MemoryStore) (model : EmbeddingModel)

/-- `INSERT OR IGNORE`: nothing is added where the model has an embedding of the text. A
chunk that is not in the table would violate the foreign key. -/
def MemoryStore.insertMemoryEmbeddingIfMissing (chunkId : ℕ) (textChecksum : JsString)
    (vector : List ℚ) : MemoryStore :=
  let embedding : MemoryEmbedding := ⟨chunkId, model, textChecksum, vector⟩
  if hadd : isAmong (store.embeddings.map MemoryEmbedding.key) embedding.key = false ∧
      chunkId ∈ store.chunks.map MemoryChunk.id then
    { store with
      embeddings := store.embeddings ++ [embedding]
      embeddingKeys := by
        rw [List.map_append, List.map_singleton]
        refine store.embeddingKeys.append (List.nodup_singleton _)
          (List.disjoint_singleton.mpr fun hmem => ?_)
        cases hadd.1.symm.trans (isAmong_iff.mpr hmem)
      embeddingChunk := by
        intro other hother
        obtain hold | hnew := List.mem_append.mp hother
        · exact store.embeddingChunk other hold
        · obtain rfl := List.mem_singleton.mp hnew
          exact hadd.2 }
  else store

/-- The loop over the rows and their vectors. A row without a vector is passed over. -/
def MemoryStore.insertEmbeddings : MemoryStore → List MemoryChunk → List (List ℚ) → MemoryStore
  | store, row :: rows, vector :: vectors =>
    let next :=
      if vector = [] then store
      else store.insertMemoryEmbeddingIfMissing model row.id row.checksum vector
    MemoryStore.insertEmbeddings next rows vectors
  | store, _, _ => store

/-- What the index job of the document is left at. -/
inductive IndexJobOutcome
  | embedded | disabled | failed

/-- The rows of some chunks, by their ordinal. -/
def MemoryStore.chunkRows (chunkIds : List ℕ) : List MemoryChunk :=
  (store.chunks.filter fun chunk => chunk.id ∈ chunkIds).insertionSort
    fun first second => first.ordinal ≤ second.ordinal

/-- `ensureChunkEmbeddings`. The answer is what the provider gives for the texts of the
rows; it may fail. -/
def MemoryStore.ensureChunkEmbeddings (chunkIds : List ℕ)
    (answer : Option (List (List ℚ))) : MemoryStore × IndexJobOutcome :=
  if model.dimensions = 0 ∨ chunkIds = [] then (store, .disabled)
  else
    match answer with
    | none => (store, .failed)
    | some vectors =>
      (MemoryStore.insertEmbeddings model store (store.chunkRows chunkIds) vectors, .embedded)

end Embeddings

/-! ### What the insertion of embeddings does -/

section Insertion

variable {store : MemoryStore} {model : EmbeddingModel} {chunkId : ℕ} {textChecksum : JsString}
  {vector : List ℚ}

@[simp]
theorem insertMemoryEmbeddingIfMissing_chunks :
    (store.insertMemoryEmbeddingIfMissing model chunkId textChecksum vector).chunks =
      store.chunks := by
  unfold MemoryStore.insertMemoryEmbeddingIfMissing
  dsimp only
  split <;> rfl

/-- A row is in the way, or the new one is added at the end. -/
theorem insertMemoryEmbeddingIfMissing_embeddings (store : MemoryStore) (model : EmbeddingModel)
    (textChecksum : JsString) (vector : List ℚ)
    (hchunk : chunkId ∈ store.chunks.map MemoryChunk.id) :
    ((model, textChecksum) ∈ store.embeddings.map MemoryEmbedding.key ∧
      (store.insertMemoryEmbeddingIfMissing model chunkId textChecksum vector).embeddings =
        store.embeddings) ∨
    ((model, textChecksum) ∉ store.embeddings.map MemoryEmbedding.key ∧
      (store.insertMemoryEmbeddingIfMissing model chunkId textChecksum vector).embeddings =
        store.embeddings ++ [⟨chunkId, model, textChecksum, vector⟩]) := by
  unfold MemoryStore.insertMemoryEmbeddingIfMissing
  by_cases hkey : (model, textChecksum) ∈ store.embeddings.map MemoryEmbedding.key
  · have hamong : isAmong (store.embeddings.map MemoryEmbedding.key) (model, textChecksum) :=
      isAmong_iff.mpr hkey
    refine .inl ⟨hkey, ?_⟩
    rw [dif_neg fun hadd => Bool.false_ne_true (hadd.1.symm.trans hamong)]
  · have hamong : isAmong (store.embeddings.map MemoryEmbedding.key) (model, textChecksum) = false :=
      Bool.eq_false_iff.mpr fun htrue => hkey (isAmong_iff.mp htrue)
    refine .inr ⟨hkey, ?_⟩
    rw [dif_pos ⟨hamong, hchunk⟩]

@[simp]
theorem insertEmbeddings_chunks (store : MemoryStore) (model : EmbeddingModel)
    (rows : List MemoryChunk) (vectors : List (List ℚ)) :
    (MemoryStore.insertEmbeddings model store rows vectors).chunks = store.chunks := by
  induction rows generalizing store vectors with
  | nil => rfl
  | cons row rows ih =>
    cases vectors with
    | nil => rfl
    | cons vector vectors =>
      rw [MemoryStore.insertEmbeddings, ih]
      split_ifs
      · rfl
      · exact insertMemoryEmbeddingIfMissing_chunks

end Insertion

/-! ## Searching chunks

A search sees the chunks whose scope and owner its filters name, less those whose document may not
be shown. -/

/-! ## Filters -/

inductive OwnerType
  | nobie | subAgent | team | system
  deriving DecidableEq

structure OwnerScope where
  ownerType : OwnerType
  ownerId : JsString

structure MemorySearchFilters where
  (sessionId runId requestGroupId scheduleId : Option JsString)
  (includeSchedule includeArtifact includeDiagnostic includeFlashFeedback : Bool)
  ownerScope : Option OwnerScope

/-- The values that are not blank, trimmed. -/
def uniqueValues (values : List (Option JsString)) : List JsString :=
  values.filterMap fun value =>
    let trimmed := trim (value.getD [])
    if trimmed = [] then none else some trimmed

/-- The owner is a text that was given and is not empty. -/
def isGivenOwner (given : Option JsString) (ownerId : JsString) : Bool :=
  given.getD [] ≠ [] && given.getD [] = ownerId

/-- The ids under which an owner's memory is looked up. -/
def ownerIds (owner : OwnerScope) : List JsString :=
  uniqueValues [some owner.ownerId,
    if owner.ownerType = .nobie then some (ofString "global") else none]

variable (filters : MemorySearchFilters) (now : ℕ)

/-- `buildChunkScopeWhere`, read on a row. -/
def chunkInScope (chunk : MemoryChunk) : Bool :=
  match filters.ownerScope with
  | some owner => isAmong (ownerIds owner) chunk.ownerId
  | none =>
    match chunk.scope with
    | .global | .longTerm => true
    | .session | .shortTerm => isGivenOwner filters.sessionId chunk.ownerId
    | .flashFeedback => filters.includeFlashFeedback && isGivenOwner filters.sessionId chunk.ownerId
    | .task => isAmong (uniqueValues [filters.requestGroupId, filters.runId]) chunk.ownerId
    | .artifact =>
      filters.includeArtifact && isAmong
        (uniqueValues [filters.requestGroupId, filters.runId, filters.sessionId]) chunk.ownerId
    | .diagnostic =>
      filters.includeDiagnostic && isAmong
        (uniqueValues [filters.requestGroupId, filters.runId, filters.sessionId]) chunk.ownerId
    | .schedule => filters.includeSchedule && isGivenOwner filters.scheduleId chunk.ownerId

def isLongTermReviewApproved (metadata : DocumentMetadata) : Bool :=
  if metadata.approved || metadata.reviewApproved then true else !metadata.requiresReview

def isFlashFeedbackActive (metadata : DocumentMetadata) (now : ℕ) : Bool :=
  match metadata.expiresAt with
  | none => true
  | some expiresAt => now < expiresAt

/-- `getMemoryVisibilityRejectionReason` finds no reason. -/
def isVisible (chunk : MemoryChunk) (document : MemoryDocument) : Bool :=
  match chunk.scope with
  | .diagnostic => filters.includeDiagnostic
  | .artifact => filters.includeArtifact
  | .schedule => filters.includeSchedule
  | .flashFeedback => filters.includeFlashFeedback && isFlashFeedbackActive document.metadata now
  | .longTerm => isLongTermReviewApproved document.metadata
  | .global | .session | .task | .shortTerm => true

/-- A chunk with its document. -/
structure ChunkRow where
  chunk : MemoryChunk
  document : MemoryDocument

variable (store : MemoryStore)

/-- The row of a chunk: `JOIN memory_documents d ON d.id = c.document_id`. -/
def MemoryStore.rowOf (chunk : MemoryChunk) : Option ChunkRow :=
  (store.documents.find? fun document => document.id = chunk.documentId).map fun document =>
    ⟨chunk, document⟩

def ChunkRow.readable (row : ChunkRow) : Bool :=
  chunkInScope filters row.chunk && isVisible filters now row.chunk row.document

/-- The chunk is one that the reader may see. -/
def MemoryStore.Shows (filters : MemorySearchFilters) (now : ℕ) (chunk : MemoryChunk) : Prop :=
  ∃ row, store.rowOf chunk = some row ∧ row.readable filters now

/-! ## Vector search -/

structure VectorRow where
  row : ChunkRow
  embedding : MemoryEmbedding

/-- The joined row of an embedding. -/
def MemoryStore.vectorRow (embedding : MemoryEmbedding) : Option VectorRow :=
  (store.chunks.find? fun chunk => chunk.id = embedding.chunkId).bind fun chunk =>
    (store.rowOf chunk).map fun row => ⟨row, embedding⟩

/-- The embedding is the current one of its chunk. -/
def VectorRow.eligible (model : EmbeddingModel) (found : VectorRow) : Bool :=
  found.embedding.model = model && found.embedding.textChecksum = found.row.chunk.checksum &&
    found.embedding.vector.length = model.dimensions

/-- The rows that a vector search compares with the query. -/
def MemoryStore.eligibleRows (model : EmbeddingModel) (filters : MemorySearchFilters) (now : ℕ) :
    List VectorRow :=
  ((store.embeddings.filterMap store.vectorRow).filter fun found =>
    found.row.readable filters now).filter fun found => found.eligible model

/-! ### What the joins find -/

variable {store : MemoryStore} {chunk : MemoryChunk}

theorem MemoryStore.rowOf_chunk {row : ChunkRow} (h : store.rowOf chunk = some row) :
    row.chunk = chunk := by
  obtain ⟨document, -, rfl⟩ := Option.map_eq_some_iff.mp h
  rfl

/-- A chunk is found by its id. -/
theorem MemoryStore.find_chunk (store : MemoryStore) (hchunk : chunk ∈ store.chunks) :
    store.chunks.find? (fun other => other.id = chunk.id) = some chunk :=
  (find?_key_eq_some_iff store.chunkIds).mpr ⟨hchunk, rfl⟩

theorem MemoryStore.vectorRow_eq_some_iff {embedding : MemoryEmbedding} {found : VectorRow} :
    store.vectorRow embedding = some found ↔
      found.embedding = embedding ∧ found.row.chunk ∈ store.chunks ∧
        found.row.chunk.id = embedding.chunkId ∧
        store.rowOf found.row.chunk = some found.row := by
  unfold MemoryStore.vectorRow
  constructor
  · intro h
    obtain ⟨chunk, hchunk, hjoined⟩ := Option.bind_eq_some_iff.mp h
    obtain ⟨row, hrow, rfl⟩ := Option.map_eq_some_iff.mp hjoined
    obtain rfl := MemoryStore.rowOf_chunk hrow
    have hsome := find?_some hchunk
    exact ⟨rfl, mem_of_find?_eq_some hchunk, of_decide_eq_true hsome, hrow⟩
  · rintro ⟨rfl, hchunk, hid, hrow⟩
    rw [← hid, store.find_chunk hchunk, Option.bind_some, hrow]
    rfl

end Store

/-! ## The embeddings of stored chunks

An embedding is not made where the model has one of the same text, so a chunk can stay without
its own. -/

/-! ## Runs -/

/-- The tables, and the documents whose chunks were given embeddings, with the model. -/
structure IndexedMemory where
  store : MemoryStore
  completed : List (ℕ × EmbeddingModel)

def IndexedMemory.empty : IndexedMemory := ⟨.empty, []⟩

inductive IndexOperation
  | store (input : StoreMemoryDocumentInput)
  | embed (documentId : ℕ) (model : EmbeddingModel) (answer : Option (List (List ℚ)))

/-- A store that throws changes nothing. -/
def indexStore (state : IndexedMemory) (input : StoreMemoryDocumentInput) : IndexedMemory :=
  match storeMemoryDocumentRecord state.store input with
  | .ok (store, _) => { state with store }
  | .error _ => state

def indexEmbed (state : IndexedMemory) (documentId : ℕ) (model : EmbeddingModel)
    (answer : Option (List (List ℚ))) : IndexedMemory :=
  let chunkIds := (state.store.chunksOf documentId).map MemoryChunk.id
  match state.store.ensureChunkEmbeddings model chunkIds answer with
  | (store, .embedded) => ⟨store, state.completed ++ [(documentId, model)]⟩
  | (store, _) => { state with store }

def indexStep (state : IndexedMemory) : IndexOperation → IndexedMemory
  | .store input => indexStore state input
  | .embed documentId model answer => indexEmbed state documentId model answer

def indexStep? (state : IndexedMemory) (operation : IndexOperation) : Option IndexedMemory :=
  some (indexStep state operation)

/-- The embedding is the chunk's own, of a model. -/
structure Linked (model : EmbeddingModel) (chunk : MemoryChunk) (embedding : MemoryEmbedding) :
    Prop where
  chunkId : embedding.chunkId = chunk.id
  made : embedding.model = model
  textChecksum : embedding.textChecksum = chunk.checksum
  measured : embedding.vector.length = model.dimensions

/-- The chunks that a vector search goes through, as often as it does. -/
def consideredIds (store : MemoryStore) (model : EmbeddingModel) (filters : MemorySearchFilters)
    (now : ℕ) : List ℕ :=
  (store.eligibleRows model filters now).map fun found => found.row.chunk.id

/-- Every chunk of the documents that were given embeddings has its own and is searched
once, and no embedding belongs to a chunk with another text. -/
structure EveryChunkEmbedded (state : IndexedMemory) : Prop where
  linked : ∀ entry ∈ state.completed, ∀ chunk ∈ state.store.chunksOf entry.1,
    ∃ embedding ∈ state.store.embeddings, Linked entry.2 chunk embedding
  ownText : ∀ embedding ∈ state.store.embeddings, ∀ chunk ∈ state.store.chunks,
    chunk.id = embedding.chunkId → embedding.textChecksum = chunk.checksum
  considered : ∀ entry ∈ state.completed, ∀ filters now,
    ∀ chunk ∈ state.store.chunksOf entry.1, state.store.Shows filters now chunk →
      (consideredIds state.store entry.2 filters now).count chunk.id = 1

/-- The provider gives a vector of the right length for every chunk of the document, and no
other chunk has the text of one: none of the document, and none with an embedding of the
model. -/
structure EmbedsNewTexts (store : MemoryStore) (documentId : ℕ) (model : EmbeddingModel)
    (vectors : List (List ℚ)) : Prop where
  answered : vectors.length = (store.chunksOf documentId).length
  measured : ∀ vector ∈ vectors, vector.length = model.dimensions
  differ : ((store.chunksOf documentId).map MemoryChunk.checksum).Nodup
  unclaimed : ∀ chunk ∈ store.chunksOf documentId, ∀ embedding ∈ store.embeddings,
    embedding.model = model → embedding.textChecksum = chunk.checksum →
      embedding.chunkId = chunk.id ∧ embedding.vector.length = model.dimensions

/-- The condition on an operation. -/
def TextsAreNew (state : IndexedMemory) : IndexOperation → Prop
  | .store _ => True
  | .embed documentId model answer =>
    ∀ vectors, answer = some vectors → EmbedsNewTexts state.store documentId model vectors

/-! ## Searching -/

variable {embedding : MemoryEmbedding} {rows : List MemoryChunk} {state : IndexedMemory}
  {documentId : ℕ}

variable {found : VectorRow} {chunk : MemoryChunk} {chunkId : ℕ} {textChecksum : JsString}
  {vector : List ℚ} {vectors : List (List ℚ)}

section Search

variable {store : MemoryStore} {model : EmbeddingModel} {filters : MemorySearchFilters} {now : ℕ}

theorem mem_eligibleRows :
    found ∈ store.eligibleRows model filters now ↔
      (found.embedding ∈ store.embeddings ∧ store.vectorRow found.embedding = some found) ∧
        found.row.readable filters now ∧ found.eligible model := by
  unfold MemoryStore.eligibleRows
  rw [mem_filter, mem_filter, mem_filterMap, and_assoc]
  refine and_congr_left fun _ => ⟨?_, fun h => ⟨_, h⟩⟩
  rintro ⟨embedding, hmem, hrow⟩
  obtain ⟨rfl, -⟩ := MemoryStore.vectorRow_eq_some_iff.mp hrow
  exact ⟨hmem, hrow⟩

theorem eligible_iff :
    found.eligible model ↔
      found.embedding.model = model ∧ found.embedding.textChecksum = found.row.chunk.checksum ∧
        found.embedding.vector.length = model.dimensions := by
  unfold VectorRow.eligible
  rw [Bool.and_eq_true, Bool.and_eq_true, decide_eq_true_eq, decide_eq_true_eq,
    decide_eq_true_eq, and_assoc]

theorem nodup_embeddings (store : MemoryStore) : store.embeddings.Nodup :=
  List.Nodup.of_map _ store.embeddingKeys

/-- No chunk is searched twice. -/
theorem nodup_consideredIds : (consideredIds store model filters now).Nodup := by
  have hrows : (store.eligibleRows model filters now).Nodup := by
    refine ((nodup_embeddings store).filterMap ?_).filter _ |>.filter _
    intro first second found hfirst hsecond
    rw [Option.mem_def] at hfirst hsecond
    rw [← (MemoryStore.vectorRow_eq_some_iff.mp hfirst).1,
      (MemoryStore.vectorRow_eq_some_iff.mp hsecond).1]
  refine hrows.map_on fun first hfirst second hsecond hid => ?_
  obtain ⟨⟨hfirstMem, hfirstRow⟩, -, hfirst⟩ := mem_eligibleRows.mp hfirst
  obtain ⟨⟨hsecondMem, hsecondRow⟩, -, hsecond⟩ := mem_eligibleRows.mp hsecond
  obtain ⟨-, hfirstChunk, -, -⟩ := MemoryStore.vectorRow_eq_some_iff.mp hfirstRow
  obtain ⟨-, hsecondChunk, -, -⟩ := MemoryStore.vectorRow_eq_some_iff.mp hsecondRow
  have hchunk := inj_on_of_nodup_map store.chunkIds hfirstChunk hsecondChunk hid
  obtain ⟨hfirstModel, hfirstText, -⟩ := eligible_iff.mp hfirst
  obtain ⟨hsecondModel, hsecondText, -⟩ := eligible_iff.mp hsecond
  have hkey : first.embedding.key = second.embedding.key := by
    unfold MemoryEmbedding.key
    rw [hfirstModel, hsecondModel, hfirstText, hsecondText, hchunk]
  have hembedding := inj_on_of_nodup_map store.embeddingKeys hfirstMem hsecondMem hkey
  rw [hembedding] at hfirstRow
  exact Option.some.inj (hfirstRow.symm.trans hsecondRow)

/-- A chunk with its own embedding is searched where it may be seen. -/
theorem mem_consideredIds (hchunk : chunk ∈ store.chunks)
    (hembedding : embedding ∈ store.embeddings) (hlinked : Linked model chunk embedding)
    (hshows : store.Shows filters now chunk) :
    chunk.id ∈ consideredIds store model filters now := by
  obtain ⟨row, hrow, hreadable⟩ := hshows
  obtain rfl := MemoryStore.rowOf_chunk hrow
  have hvector : store.vectorRow embedding = some ⟨row, embedding⟩ :=
    MemoryStore.vectorRow_eq_some_iff.mpr ⟨rfl, hchunk, hlinked.chunkId.symm, hrow⟩
  have heligible : VectorRow.eligible model ⟨row, embedding⟩ :=
    eligible_iff.mpr ⟨hlinked.made, hlinked.textChecksum, hlinked.measured⟩
  have hmem : (⟨row, embedding⟩ : VectorRow) ∈ store.eligibleRows model filters now :=
    mem_eligibleRows.mpr ⟨⟨hembedding, hvector⟩, hreadable, heligible⟩
  exact mem_map.mpr ⟨_, hmem, rfl⟩

end Search

/-! ## What the insertion of embeddings leads to -/

section Insert

variable {store : MemoryStore} {model : EmbeddingModel}

theorem mem_insertMemoryEmbeddingIfMissing (hchunk : chunkId ∈ store.chunks.map MemoryChunk.id)
    (h : embedding ∈
      (store.insertMemoryEmbeddingIfMissing model chunkId textChecksum vector).embeddings) :
    embedding ∈ store.embeddings ∨ embedding = ⟨chunkId, model, textChecksum, vector⟩ := by
  obtain ⟨-, hsame⟩ | ⟨-, hadded⟩ := insertMemoryEmbeddingIfMissing_embeddings store
    model textChecksum vector hchunk
  · rw [hsame] at h
    exact .inl h
  · rw [hadded] at h
    exact (mem_append.mp h).imp id mem_singleton.mp

/-- What is there stays. -/
theorem subset_insertMemoryEmbeddingIfMissing (hchunk : chunkId ∈ store.chunks.map MemoryChunk.id) :
    store.embeddings ⊆
      (store.insertMemoryEmbeddingIfMissing model chunkId textChecksum vector).embeddings := by
  obtain ⟨-, hsame⟩ | ⟨-, hadded⟩ := insertMemoryEmbeddingIfMissing_embeddings store
    model textChecksum vector hchunk
  · rw [hsame]
    exact List.Subset.refl _
  · rw [hadded]
    exact subset_append_left _ _

/-- Of what the loop leaves, each embedding was there or is one of a row. -/
theorem mem_insertEmbeddings (hrows : ∀ row ∈ rows, row ∈ store.chunks)
    (h : embedding ∈ (MemoryStore.insertEmbeddings model store rows vectors).embeddings) :
    embedding ∈ store.embeddings ∨
      ∃ row ∈ rows, embedding.chunkId = row.id ∧ embedding.textChecksum = row.checksum := by
  induction rows generalizing store vectors with
  | nil => exact .inl h
  | cons row rows ih =>
    cases vectors with
    | nil => exact .inl h
    | cons vector vectors =>
      rw [MemoryStore.insertEmbeddings] at h
      have hrow : row.id ∈ store.chunks.map MemoryChunk.id :=
        mem_map_of_mem (hrows row mem_cons_self)
      have hrest : ∀ other ∈ rows, other ∈ store.chunks :=
        fun other hother => hrows other (mem_cons_of_mem _ hother)
      split_ifs at h
      · obtain hold | ⟨other, hother, hof⟩ := ih hrest h
        · exact .inl hold
        · exact .inr ⟨other, mem_cons_of_mem _ hother, hof⟩
      · obtain hold | ⟨other, hother, hof⟩ := ih (by simpa using hrest) h
        · obtain hbefore | rfl := mem_insertMemoryEmbeddingIfMissing hrow hold
          · exact .inl hbefore
          · exact .inr ⟨row, mem_cons_self, rfl, rfl⟩
        · exact .inr ⟨other, mem_cons_of_mem _ hother, hof⟩

theorem subset_insertEmbeddings (model : EmbeddingModel) (vectors : List (List ℚ))
    (hrows : ∀ row ∈ rows, row ∈ store.chunks) :
    store.embeddings ⊆ (MemoryStore.insertEmbeddings model store rows vectors).embeddings := by
  induction rows generalizing store vectors with
  | nil => exact List.Subset.refl _
  | cons row rows ih =>
    cases vectors with
    | nil => exact List.Subset.refl _
    | cons vector vectors =>
      rw [MemoryStore.insertEmbeddings]
      have hrow : row.id ∈ store.chunks.map MemoryChunk.id :=
        mem_map_of_mem (hrows row mem_cons_self)
      have hrest : ∀ other ∈ rows, other ∈ store.chunks :=
        fun other hother => hrows other (mem_cons_of_mem _ hother)
      split_ifs
      · exact ih vectors hrest
      · exact List.Subset.trans (subset_insertMemoryEmbeddingIfMissing hrow)
          (ih vectors (by simpa using hrest))

/-- Every row whose text is its own gets an embedding. -/
theorem linked_insertEmbeddings (hdimensions : model.dimensions ≠ 0)
    (hrows : ∀ row ∈ rows, row ∈ store.chunks) (hlength : vectors.length = rows.length)
    (hmeasured : ∀ vector ∈ vectors, vector.length = model.dimensions)
    (hdiffer : (rows.map MemoryChunk.checksum).Nodup)
    (hunclaimed : ∀ row ∈ rows, ∀ embedding ∈ store.embeddings,
      embedding.model = model → embedding.textChecksum = row.checksum → Linked model row embedding)
    :
    ∀ row ∈ rows, ∃ embedding ∈ (MemoryStore.insertEmbeddings model store rows vectors).embeddings,
        Linked model row embedding := by
  induction rows generalizing store vectors with
  | nil => simp
  | cons first rows ih =>
    cases vectors with
    | nil => simp at hlength
    | cons vector vectors =>
      have hvector : vector.length = model.dimensions := hmeasured vector mem_cons_self
      have hnonempty : vector ≠ [] := by
        rintro rfl
        exact hdimensions hvector.symm
      have hfirst : first.id ∈ store.chunks.map MemoryChunk.id :=
        mem_map_of_mem (hrows first mem_cons_self)
      have hrest : ∀ row ∈ rows, row ∈ store.chunks :=
        fun row hrow => hrows row (mem_cons_of_mem _ hrow)
      obtain ⟨hother, hdiffer⟩ := nodup_cons.mp hdiffer
      rw [MemoryStore.insertEmbeddings, if_neg hnonempty]
      -- The first row has its embedding after its own turn.
      have hlinked : ∃ embedding ∈ (store.insertMemoryEmbeddingIfMissing model first.id
          first.checksum vector).embeddings, Linked model first embedding := by
        obtain ⟨hthere, hsame⟩ | ⟨-, hadded⟩ := insertMemoryEmbeddingIfMissing_embeddings
          store model first.checksum vector hfirst
        · obtain ⟨embedding, hembedding, hkey⟩ := mem_map.mp hthere
          obtain ⟨hmodel, htext⟩ := Prod.mk.inj hkey
          exact ⟨embedding, hsame ▸ hembedding,
            hunclaimed first mem_cons_self embedding hembedding hmodel htext⟩
        · rw [hadded]
          exact ⟨_, mem_append_cons_self, rfl, rfl, rfl, hvector⟩
      intro row hrow
      obtain rfl | hrow := mem_cons.mp hrow
      · obtain ⟨embedding, hembedding, hof⟩ := hlinked
        exact ⟨embedding, subset_insertEmbeddings model vectors (by simpa using hrest)
          hembedding, hof⟩
      · refine ih (by simpa using hrest) (Nat.succ_injective hlength)
          (fun other hother => hmeasured other (mem_cons_of_mem _ hother)) hdiffer ?_ row hrow
        intro later hlater embedding hembedding hmodel htext
        obtain hold | rfl := mem_insertMemoryEmbeddingIfMissing hfirst hembedding
        · exact hunclaimed later (mem_cons_of_mem _ hlater) embedding hold hmodel htext
        · exact absurd (mem_map.mpr ⟨later, hlater, htext.symm⟩) hother

end Insert

/-! ## Steps -/

/-- What the steps keep. -/
structure Indexed (state : IndexedMemory) : Prop where
  linked : ∀ entry ∈ state.completed, ∀ chunk ∈ state.store.chunksOf entry.1,
    ∃ embedding ∈ state.store.embeddings, Linked entry.2 chunk embedding
  ownText : ∀ embedding ∈ state.store.embeddings, ∀ chunk ∈ state.store.chunks,
    chunk.id = embedding.chunkId → embedding.textChecksum = chunk.checksum
  given : ∀ entry ∈ state.completed, entry.1 < state.store.nextId

theorem Indexed.everyChunkEmbedded (h : Indexed state) : EveryChunkEmbedded state where
  linked := h.linked
  ownText := h.ownText
  considered := by
    intro entry hentry filters now chunk hchunk hshows
    obtain ⟨embedding, hembedding, hlinked⟩ := h.linked entry hentry chunk hchunk
    exact count_eq_one_of_mem nodup_consideredIds
      (mem_consideredIds (mem_filter.mp hchunk).1 hembedding hlinked hshows)

theorem indexed_empty : Indexed .empty where
  linked := by simp [IndexedMemory.empty]
  ownText := by simp [IndexedMemory.empty, MemoryStore.empty]
  given := by simp [IndexedMemory.empty]

/-- A new document leaves the chunks of the others alone. -/
theorem chunksOf_addDocument {store : MemoryStore} (input : StoreMemoryDocumentInput)
    (ownerId : JsString) (hgiven : documentId < store.nextId) :
    (store.addDocument input ownerId).chunksOf documentId = store.chunksOf documentId := by
  unfold MemoryStore.chunksOf MemoryStore.addDocument
  rw [filter_append, append_right_eq_self, filter_eq_nil_iff]
  intro chunk hchunk hsame
  rw [decide_eq_true_eq, (mem_newChunks hchunk).1] at hsame
  exact absurd hsame hgiven.ne'

/-- A store adds nothing, or a document with its chunks. -/
theorem storeMemoryDocumentRecord_ok {store next : MemoryStore} {input : StoreMemoryDocumentInput}
    {result : StoreMemoryDocumentResult}
    (h : storeMemoryDocumentRecord store input = .ok (next, result)) :
    next = store ∨ ∃ ownerId, next = store.addDocument input ownerId := by
  unfold storeMemoryDocumentRecord at h
  split at h
  · cases h
  · next ownerId _ =>
    split at h
    · cases h
      exact .inl rfl
    · cases h
      exact .inr ⟨ownerId, rfl⟩

theorem Indexed.addDocument (h : Indexed state) (input : StoreMemoryDocumentInput)
    (ownerId : JsString) :
    Indexed { state with store := state.store.addDocument input ownerId } where
  linked := by
    intro entry hentry chunk hchunk
    rw [chunksOf_addDocument input ownerId (h.given entry hentry)] at hchunk
    exact h.linked entry hentry chunk hchunk
  ownText := by
    intro embedding hembedding chunk hchunk hid
    obtain hold | hnew := mem_append.mp hchunk
    · exact h.ownText embedding hembedding chunk hold hid
    · obtain ⟨other, hother, hsame⟩ := mem_map.mp (state.store.embeddingChunk embedding hembedding)
      have hlt := state.store.givenChunkIds other hother
      have hle := (mem_newChunks hnew).2.2.2.1
      omega
  given := by
    intro entry hentry
    have hlt := h.given entry hentry
    change _ < state.store.nextId + 1 + _
    omega

theorem Indexed.store (h : Indexed state) (input : StoreMemoryDocumentInput) :
    Indexed (indexStore state input) := by
  unfold indexStore
  split
  · next hstored =>
    obtain rfl | ⟨ownerId, rfl⟩ := storeMemoryDocumentRecord_ok hstored
    · exact h
    · exact h.addDocument input ownerId
  · exact h

/-- The rows of a document's chunk ids are its chunks. -/
theorem chunkRows_perm (store : MemoryStore) (documentId : ℕ) :
    (store.chunkRows ((store.chunksOf documentId).map MemoryChunk.id)).Perm
      (store.chunksOf documentId) := by
  refine (perm_insertionSort _ _).trans (List.Perm.of_eq ?_)
  refine filter_congr fun chunk hchunk => decide_eq_decide.mpr ⟨fun hmem => ?_, fun hof => ?_⟩
  · obtain ⟨other, hother, hid⟩ := mem_map.mp hmem
    obtain ⟨hstored, hof⟩ := mem_filter.mp hother
    obtain rfl := inj_on_of_nodup_map store.chunkIds hstored hchunk hid
    exact of_decide_eq_true hof
  · exact mem_map_of_mem (mem_filter.mpr ⟨hchunk, decide_eq_true hof⟩)

theorem mem_chunkRows {store : MemoryStore}
    (h : chunk ∈ store.chunkRows ((store.chunksOf documentId).map MemoryChunk.id)) :
    chunk ∈ store.chunks :=
  (mem_filter.mp ((chunkRows_perm store documentId).mem_iff.mp h)).1

@[simp]
theorem insertEmbeddings_nextId (store : MemoryStore) (model : EmbeddingModel)
    (rows : List MemoryChunk) (vectors : List (List ℚ)) :
    (MemoryStore.insertEmbeddings model store rows vectors).nextId = store.nextId := by
  induction rows generalizing store vectors with
  | nil => rfl
  | cons row rows ih =>
    cases vectors with
    | nil => rfl
    | cons vector vectors =>
      rw [MemoryStore.insertEmbeddings, ih]
      split_ifs
      · rfl
      · unfold MemoryStore.insertMemoryEmbeddingIfMissing
        dsimp only
        split <;> rfl

/-- The embeddings of a document whose texts are new to the model. -/
theorem Indexed.embed (h : Indexed state) {model : EmbeddingModel} {answer : Option (List (List ℚ))}
    (hnew : TextsAreNew state (.embed documentId model answer)) :
    Indexed (indexEmbed state documentId model answer) := by
  unfold indexEmbed
  dsimp only
  unfold MemoryStore.ensureChunkEmbeddings
  by_cases hdisabled : model.dimensions = 0 ∨ (state.store.chunksOf documentId).map MemoryChunk.id = []
  · rw [if_pos hdisabled]
    exact h
  rw [if_neg hdisabled]
  obtain ⟨hdimensions, hchunks⟩ := not_or.mp hdisabled
  cases answer with
  | none => exact h
  | some vectors =>
    have hembeds := hnew vectors rfl
    have hperm := chunkRows_perm state.store documentId
    have hrows : ∀ row ∈ state.store.chunkRows ((state.store.chunksOf documentId).map
        MemoryChunk.id), row ∈ state.store.chunks := fun row hrow => mem_chunkRows hrow
    have hsubset := subset_insertEmbeddings model vectors hrows
    have hlinked := linked_insertEmbeddings hdimensions hrows
      (hembeds.answered.trans hperm.length_eq.symm) hembeds.measured
      ((hperm.map _).nodup_iff.mpr hembeds.differ) (by
        intro row hrow embedding hembedding hmodel htext
        obtain ⟨hchunk, hmeasured⟩ := hembeds.unclaimed row (hperm.mem_iff.mp hrow) embedding
          hembedding hmodel htext
        exact ⟨hchunk, hmodel, htext, hmeasured⟩)
    refine ⟨fun entry hentry chunk hchunk => ?_, fun embedding hembedding chunk hchunk hid => ?_,
      fun entry hentry => ?_⟩
    · have hchunk : chunk ∈ state.store.chunksOf entry.1 := by
        simpa [MemoryStore.chunksOf] using hchunk
      obtain hold | hlast := mem_append.mp hentry
      · obtain ⟨embedding, hembedding, hof⟩ := h.linked entry hold chunk hchunk
        exact ⟨embedding, hsubset hembedding, hof⟩
      · obtain rfl := mem_singleton.mp hlast
        exact hlinked chunk (hperm.mem_iff.mpr hchunk)
    · have hchunk : chunk ∈ state.store.chunks := by simpa using hchunk
      obtain hold | ⟨row, hrow, hof, htext⟩ := mem_insertEmbeddings hrows hembedding
      · exact h.ownText embedding hold chunk hchunk hid
      · obtain rfl := inj_on_of_nodup_map state.store.chunkIds hchunk (hrows row hrow)
          (hid.trans hof)
        exact htext
    · change entry.1 < (MemoryStore.insertEmbeddings model state.store _ vectors).nextId
      rw [insertEmbeddings_nextId]
      obtain hold | hlast := mem_append.mp hentry
      · exact h.given entry hold
      · obtain rfl := mem_singleton.mp hlast
        -- The document has a chunk, so its id has been given.
        obtain ⟨id, hid⟩ := exists_mem_of_ne_nil _ hchunks
        obtain ⟨chunk, hchunk, -⟩ := mem_map.mp hid
        obtain ⟨hstored, hof⟩ := mem_filter.mp hchunk
        obtain ⟨document, hdocument, hsame⟩ := mem_map.mp (state.store.chunkDocument chunk hstored)
        have hlt := state.store.givenDocumentIds document hdocument
        rw [hsame, of_decide_eq_true hof] at hlt
        exact hlt

/-! ## Runs whose texts are new -/

/-- In a run whose embedded texts are new to their model, and whose provider gives a vector
of the right length for each, every chunk has its own embedding and is searched once. -/
theorem every_chunk_embedded {operations : List IndexOperation} {state : IndexedMemory}
    (run : Run (Meeting TextsAreNew (Takes indexStep?)) .empty operations state) :
    EveryChunkEmbedded state := by
  refine Indexed.everyChunkEmbedded (run.invariant_of_meeting ?_ indexed_empty)
  intro state operation next hindexed hnew htaken
  cases htaken
  cases operation with
  | store input => exact hindexed.store input
  | embed documentId model answer => exact hindexed.embed hnew

/-- A text that one owner stores in one chunk. -/
def noteOf (ownerId text : String) : StoreMemoryDocumentInput where
  scope := .session
  ownerId := some (ofString ownerId)
  sourceType := ofString "note"
  sourceRef := none
  title := none
  rawText := ofString text
  checksum := ofString text
  metadata := ⟨false, false, false, none⟩
  chunks := [⟨ofString text, ofString text⟩]
  now := 0

def smallModel : EmbeddingModel := ⟨ofString "ollama", ofString "small", 1⟩

/-- Two owners store two texts, and the chunks of both are given embeddings. -/
def twoNotes (first second : String) : List IndexOperation :=
  [.store (noteOf "alice" first), .embed 0 smallModel (some [[1]]),
    .store (noteOf "bob" second), .embed 2 smallModel (some [[1]])]

theorem twoNotes_run : Run (Meeting TextsAreNew (Takes indexStep?)) .empty
    (twoNotes "tea" "milk") ((twoNotes "tea" "milk").foldl indexStep .empty) := by
  have takes : ∀ state operation, TextsAreNew state operation →
      Run (Meeting TextsAreNew (Takes indexStep?)) state [operation] (indexStep state operation) :=
    fun _ _ hnew => Run.single ⟨hnew, rfl⟩
  have hfirst : EmbedsNewTexts (((twoNotes "tea" "milk").take 1).foldl indexStep .empty).store 0
      smallModel [[1]] :=
    ⟨by decide +kernel, by decide +kernel, by decide +kernel, by decide +kernel⟩
  have hsecond : EmbedsNewTexts (((twoNotes "tea" "milk").take 3).foldl indexStep .empty).store 2
      smallModel [[1]] :=
    ⟨by decide +kernel, by decide +kernel, by decide +kernel, by decide +kernel⟩
  refine (((takes .empty (.store (noteOf "alice" "tea")) trivial).append
    (takes _ (.embed 0 smallModel (some [[1]])) ?_)).append
    (takes _ (.store (noteOf "bob" "milk")) trivial)).append
    (takes _ (.embed 2 smallModel (some [[1]])) ?_)
  · intro vectors hvectors
    cases hvectors
    exact hfirst
  · intro vectors hvectors
    cases hvectors
    exact hsecond

theorem twoNotes_embedded : EveryChunkEmbedded ((twoNotes "tea" "milk").foldl indexStep .empty) :=
  every_chunk_embedded twoNotes_run

/-- Bob stores the text that Alice has stored: his chunk has no embedding. -/
theorem sameNotes_not_embedded :
    ∃ operations state, Run (Takes indexStep?) .empty operations state ∧
      ¬ EveryChunkEmbedded state := by
  refine ⟨twoNotes "tea" "tea", (twoNotes "tea" "tea").foldl indexStep .empty,
    Run.of_execute rfl, fun h => ?_⟩
  have hlinked := h.linked (2, smallModel) (by decide +kernel)
  have hchunk : ∀ chunk ∈ ((twoNotes "tea" "tea").foldl indexStep .empty).store.chunksOf 2,
      ∀ embedding ∈ ((twoNotes "tea" "tea").foldl indexStep .empty).store.embeddings,
        embedding.chunkId ≠ chunk.id := by
    decide +kernel
  obtain ⟨chunk, hmem⟩ : ∃ chunk,
      chunk ∈ ((twoNotes "tea" "tea").foldl indexStep .empty).store.chunksOf 2 :=
    exists_mem_of_ne_nil _ (by decide +kernel)
  obtain ⟨embedding, hembedding, hof⟩ := hlinked chunk hmem
  exact hchunk chunk hmem embedding hembedding hof.chunkId

end Nobie.Memory
