/-
# Chunked responses arrive whole

The extension cuts a long response into base64 pieces and the caller puts them
together by index. The two sides agree on the encoding at every residue of the
length modulo three and on the number of pieces at exact multiples of the piece
size, and the caller settles on exactly the text the extension serialized,
whatever the order of the pieces, their repetitions and the messages of other
calls between them.
-/

import Nobie.Yeonjang.ResponseWaiter

namespace Nobie.Yeonjang

open Foundation List

/-! ## The encoder and the standard decoder -/

set_option maxRecDepth 4000 in
theorem base64Value_table :
    ∀ index < 64, base64Value (base64Table.getD index '=') = some index := by
  decide +kernel

variable {n size index : ℕ} {responseTopic : String} {response : Response} {requestId : String}
  {message : MqttMessage} (deliveries : List MqttMessage) {arrived : List MqttMessage}
  {parts : OrderedMap ℚ String}

theorem base64Value_base64Char {index : UInt8} (hindex : index.toNat = n) (hn : n < 64) :
    base64Value (base64Char index) = some n := by
  subst hindex
  exact base64Value_table index.toNat hn

/-- Bits moved above the bits they are joined with are added to them. -/
theorem shiftLeft_or_eq_add {high low k : ℕ} (hhigh : high * 2 ^ k < 2 ^ 8) (hlow : low < 2 ^ k) :
    high <<< k % 2 ^ 8 ||| low = high * 2 ^ k + low := by
  rw [Nat.shiftLeft_eq, Nat.mod_eq_of_lt hhigh, ← Nat.shiftLeft_eq,
    ← Nat.shiftLeft_add_eq_or_of_lt hlow, Nat.shiftLeft_eq]

theorem toNat_first_bits (first : UInt8) : (first >>> 2).toNat = first.toNat / 4 := by
  rw [UInt8.toNat_shiftRight]
  exact Nat.shiftRight_eq_div_pow first.toNat 2

theorem toNat_second_bits (first second : UInt8) :
    (((first &&& 0b00000011) <<< 4) ||| (second >>> 4)).toNat =
      first.toNat % 4 * 16 + second.toNat / 16 := by
  have hmask : (first &&& 0b00000011).toNat = first.toNat % 4 := by
    rw [UInt8.toNat_and]
    exact Nat.and_two_pow_sub_one_eq_mod first.toNat 2
  have hshift : (second >>> 4).toNat = second.toNat / 16 := by
    rw [UInt8.toNat_shiftRight]
    exact Nat.shiftRight_eq_div_pow second.toNat 4
  have hsecond := second.toNat_lt
  rw [UInt8.toNat_or, UInt8.toNat_shiftLeft, hmask, hshift]
  exact shiftLeft_or_eq_add (k := 4) (by omega) (by omega)

theorem toNat_third_bits (second third : UInt8) :
    (((second &&& 0b00001111) <<< 2) ||| (third >>> 6)).toNat =
      second.toNat % 16 * 4 + third.toNat / 64 := by
  have hmask : (second &&& 0b00001111).toNat = second.toNat % 16 := by
    rw [UInt8.toNat_and]
    exact Nat.and_two_pow_sub_one_eq_mod second.toNat 4
  have hshift : (third >>> 6).toNat = third.toNat / 64 := by
    rw [UInt8.toNat_shiftRight]
    exact Nat.shiftRight_eq_div_pow third.toNat 6
  have hthird := third.toNat_lt
  rw [UInt8.toNat_or, UInt8.toNat_shiftLeft, hmask, hshift]
  exact shiftLeft_or_eq_add (k := 2) (by omega) (by omega)

theorem toNat_fourth_bits (third : UInt8) : (third &&& 0b00111111).toNat = third.toNat % 64 := by
  rw [UInt8.toNat_and]
  exact Nat.and_two_pow_sub_one_eq_mod third.toNat 6

/-- A text of base64 characters and padding that stands for the given bytes. -/
def Encodes (chars : List Char) (bytes : List UInt8) : Prop :=
  ∃ plain padding values, chars = plain ++ padding ∧
    plain.map base64Value = values.map some ∧
    (padding = [] ∨ padding.head? = some '=') ∧ base64Bytes values = bytes

theorem ofNat_eq_of_toNat (byte : UInt8) (h : n = byte.toNat) : UInt8.ofNat n = byte := by
  subst h
  exact UInt8.ofNat_toNat

variable (bytes : List UInt8) {waiter : Waiter}

theorem base64Chars_encodes : Encodes (base64Chars bytes) bytes := by
  fun_induction base64Chars bytes with
  | case1 => exact ⟨[], [], [], rfl, rfl, Or.inl rfl, rfl⟩
  | case2 first =>
    have hfirst := first.toNat_lt
    have hone := base64Value_base64Char (toNat_first_bits first) (by omega)
    have htwo := base64Value_base64Char (toNat_second_bits first 0) (by
      rw [UInt8.toNat_zero]
      omega)
    refine ⟨[base64Char (first >>> 2),
        base64Char (((first &&& 0b00000011) <<< 4) ||| ((0 : UInt8) >>> 4))],
      ['=', '='], [_, _], rfl, by rw [List.map, List.map, hone, htwo]; rfl, Or.inr rfl, ?_⟩
    rw [base64Bytes, ofNat_eq_of_toNat first]
    rw [UInt8.toNat_zero]
    omega
  | case3 first second =>
    have hfirst := first.toNat_lt
    have hsecond := second.toNat_lt
    have hone := base64Value_base64Char (toNat_first_bits first) (by omega)
    have htwo := base64Value_base64Char (toNat_second_bits first second) (by omega)
    have hthree := base64Value_base64Char (toNat_third_bits second 0) (by
      rw [UInt8.toNat_zero]
      omega)
    refine ⟨[base64Char (first >>> 2),
        base64Char (((first &&& 0b00000011) <<< 4) ||| (second >>> 4)),
        base64Char (((second &&& 0b00001111) <<< 2) ||| ((0 : UInt8) >>> 6))],
      ['='], [_, _, _], rfl, by rw [List.map, List.map, List.map, hone, htwo, hthree]; rfl,
      Or.inr rfl, ?_⟩
    rw [base64Bytes, ofNat_eq_of_toNat first (by omega), ofNat_eq_of_toNat second]
    rw [UInt8.toNat_zero]
    omega
  | case4 first second third rest ih =>
    obtain ⟨plain, padding, values, hchars, hvalues, hpadding, hbytes⟩ := ih
    have hfirst := first.toNat_lt
    have hsecond := second.toNat_lt
    have hthird := third.toNat_lt
    have hone := base64Value_base64Char (toNat_first_bits first) (by omega)
    have htwo := base64Value_base64Char (toNat_second_bits first second) (by omega)
    have hthree := base64Value_base64Char (toNat_third_bits second third) (by omega)
    have hfour := base64Value_base64Char (toNat_fourth_bits third) (by omega)
    refine ⟨base64Group first (some second) (some third) ++ plain, padding,
      first.toNat / 4 :: (first.toNat % 4 * 16 + second.toNat / 16) ::
        (second.toNat % 16 * 4 + third.toNat / 64) :: third.toNat % 64 :: values,
      by rw [hchars, append_assoc], ?_, hpadding, ?_⟩
    · simp [base64Group, hone, htwo, hthree, hfour, hvalues]
    · rw [base64Bytes, hbytes, ofNat_eq_of_toNat first (by omega),
        ofNat_eq_of_toNat second (by omega),
        ofNat_eq_of_toNat third (by omega)]

/-- The standard decoder inverts the encoder at every length. -/
theorem base64Decode_base64Encode : base64Decode (base64Encode bytes) = bytes := by
  obtain ⟨plain, padding, values, hchars, hvalues, hpadding, hbytes⟩ := base64Chars_encodes bytes
  rw [base64Encode, hchars, base64Decode_of_values hvalues hpadding, hbytes]

theorem base64Encode_ne_empty {bytes : List UInt8} (h : bytes ≠ []) : base64Encode bytes ≠ "" := by
  intro hempty
  apply h
  rw [← base64Decode_base64Encode bytes, hempty]
  rfl

/-! ## Cutting a payload into pieces -/

theorem divCeil_mul_ge (hsize : 0 < size) : n ≤ divCeil n size * size := by
  have hmod := Nat.div_add_mod (n + size - 1) size
  have hlt := Nat.mod_lt (n + size - 1) hsize
  rw [divCeil, Nat.mul_comm]
  omega

/-- Every piece before the last count has bytes left. -/
theorem mul_lt_of_lt_divCeil (hsize : 0 < size) (h : index < divCeil n size) :
    index * size < n := by
  have hle : (index + 1) * size ≤ n + size - 1 := (Nat.le_div_iff_mul_le hsize).mp h
  rw [Nat.add_mul, Nat.one_mul] at hle
  omega

theorem flatten_pieces (size count : ℕ) (bytes : List UInt8) :
    ((List.range count).map fun index => (bytes.drop (index * size)).take size).flatten =
      bytes.take (count * size) := by
  induction count with
  | zero => simp
  | succ count ih =>
    rw [range_succ, map_append, flatten_append, ih, Nat.succ_mul, take_add]
    simp

/-- The pieces make up the payload. -/
theorem flatten_chunks (hsize : 0 < size) (bytes : List UInt8) :
    (chunks size bytes).flatten = bytes := by
  rw [chunks, flatten_pieces, take_of_length_le (divCeil_mul_ge hsize)]

/-- No piece is empty, so none is sent with empty data. -/
theorem chunk_ne_nil (hsize : 0 < size) {bytes chunk : List UInt8} (h : chunk ∈ chunks size bytes) :
    chunk ≠ [] := by
  rw [chunks, mem_map] at h
  obtain ⟨index, hindex, rfl⟩ := h
  have hlt := mul_lt_of_lt_divCeil hsize (mem_range.mp hindex)
  apply ne_nil_of_length_pos
  rw [length_take, length_drop]
  omega

/-! ## The messages of one response -/

/-- The piece of a payload with the given index. -/
def piece (payload : List UInt8) (index : ℕ) : List UInt8 :=
  (payload.drop (index * responseChunkBytes)).take responseChunkBytes

/-- The message that carries a piece. -/
def pieceMessage (responseTopic : String) (response : Response) (index : ℕ) : MqttMessage where
  topic := responseTopic
  payload := toVec (chunkEnvelope response.id response.payload index
    (piece response.payload index)).toJson

theorem zipIdx_map_range {β : Type} (f : ℕ → β) (count : ℕ) :
    ((List.range count).map f).zipIdx = (List.range count).map fun index => (f index, index) := by
  apply ext_getElem
  · simp
  · intro index _ _
    simp

theorem publishResponse_chunked
    (h : ¬ (response.payload.length ≤ responseChunkBytes ∨ response.id.isNone)) :
    publishResponse responseTopic response =
      (List.range (divCeil response.payload.length responseChunkBytes)).map
        (pieceMessage responseTopic response) := by
  rw [publishResponse, if_neg h, chunks, zipIdx_map_range, map_map]
  rfl

theorem piece_ne_nil {payload : List UInt8} (h : index < divCeil payload.length responseChunkBytes)
    : piece payload index ≠ [] :=
  chunk_ne_nil (by decide) (mem_map_of_mem (mem_range.mpr h))

/-- No message of a response carries another id than the response does. -/
theorem not_carriesOtherId_of_mem (responseTopic : String) (hid : response.id = some requestId)
    (hmem : message ∈ publishResponse responseTopic response) :
    ¬ CarriesOtherId requestId message := by
  rintro ⟨fields, id, hparse, hlookup, -, hother⟩
  obtain ⟨own, hown, hid'⟩ := parse_of_mem_publishResponse hid hmem
  rw [hparse, Option.some.injEq, Json.obj.injEq] at hown
  subst hown
  rw [hlookup, Option.some.injEq, Json.str.injEq] at hid'
  exact hother hid'

/-! ## Settling on the whole response -/

/-- The state of a call that has settled on a response. -/
def settledOn (response : Response) : Waiter where
  listening := false
  chunkParts := ∅
  settlements := [⟨responseOutcome response.toJson, response.payload⟩]

/-- What a call is after some deliveries: settled on its response if all messages
of the response are among them, still waiting if not. -/
def SettledWhenComplete (responseTopic : String) (response : Response)
    (deliveries : List MqttMessage) (waiter : Waiter) : Prop :=
  if publishResponse responseTopic response ⊆ deliveries then waiter = settledOn response
  else waiter.listening ∧ waiter.settlements = []

/-- A call is settled when its response is complete, after whatever else was delivered. -/
def SettlesWhenComplete (requestId responseTopic : String) (response : Response) : Prop :=
  ∀ deliveries : List MqttMessage, (∀ message ∈ deliveries,
    message ∈ publishResponse responseTopic response ∨ CarriesOtherId requestId message) →
      SettledWhenComplete responseTopic response deliveries
        (waitForResponse requestId responseTopic (deliveries.map .message))

/-- A call settles exactly when the last message of its response arrives, if
every delivery before leaves it pending and the one that completes the response
settles it. -/
theorem waitForResponse_of_pending (Pending : List MqttMessage → Waiter → Prop)
    (hstart : Pending [] .attached) (hlistening : ∀ arrived waiter, Pending arrived waiter →
      waiter.listening ∧ waiter.settlements = [])
    (hincomplete : ∀ arrived waiter, Pending arrived waiter →
      ¬ publishResponse responseTopic response ⊆ arrived)
    (hstep : ∀ arrived waiter message, Pending arrived waiter →
      message ∈ publishResponse responseTopic response ∨ CarriesOtherId requestId message →
      if publishResponse responseTopic response ⊆ arrived ++ [message]
      then onMessage requestId responseTopic waiter message = settledOn response
      else Pending (arrived ++ [message]) (onMessage requestId responseTopic waiter message)) :
    SettlesWhenComplete requestId responseTopic response := by
  intro deliveries hdeliveries
  have hstate : if publishResponse responseTopic response ⊆ deliveries
      then waitForResponse requestId responseTopic (deliveries.map .message) = settledOn response
      else Pending deliveries
        (waitForResponse requestId responseTopic (deliveries.map .message)) := by
    induction deliveries using List.reverseRecOn with
    | nil => rw [if_neg (hincomplete _ _ hstart)]; exact hstart
    | append_singleton arrived message ih =>
      have ih := ih fun m hm => hdeliveries m (mem_append_left _ hm)
      rw [map_append, waitForResponse_append]
      simp only [map_cons, map_nil, foldl_cons, foldl_nil]
      by_cases hcomplete : publishResponse responseTopic response ⊆ arrived
      · rw [if_pos hcomplete] at ih
        rw [if_pos (List.Subset.trans hcomplete (subset_append_left _ _)), ih]
        rfl
      · rw [if_neg hcomplete] at ih
        rw [waiterStep_of_listening (hlistening _ _ ih).1]
        exact hstep _ _ _ ih (hdeliveries message (by simp))
  unfold SettledWhenComplete
  by_cases hcomplete : publishResponse responseTopic response ⊆ deliveries
  · rw [if_pos hcomplete] at hstate ⊢
    exact hstate
  · rw [if_neg hcomplete] at hstate ⊢
    exact hlistening _ _ hstate

/-! ## Collecting the pieces -/

/-- The number of pieces of a response. -/
def pieceCount (response : Response) : ℕ := divCeil response.payload.length responseChunkBytes

theorem pieceMessage_injective (responseTopic : String) (response : Response) :
    Function.Injective (pieceMessage responseTopic response) := by
  intro first second heq
  have hvalue := congrArg (fun message => Json.parse (utf8Text message.payload)) heq
  simp only [pieceMessage, parse_toVec, Option.some.injEq] at hvalue
  have hindex := congrArg (fun value => numberField? value "chunk_index") hvalue
  have hnumber : Number.ofNat first = Number.ofNat second := Option.some.inj hindex
  exact_mod_cast (Number.value_ofNat first).symm.trans
    ((congrArg Number.value hnumber).trans (Number.value_ofNat second))

theorem orderedParts_of_get? {count : ℕ} (text : ℕ → String)
    (hget : ∀ index < count, parts.get? (index : ℚ) = some (text index)) :
    orderedParts parts count = .ok ((List.range count).map text) := by
  have hparts : (List.range count).filterMap (fun index : ℕ => parts.get? (index : ℚ)) =
      (List.range count).map text := by
    rw [filterMap_congr fun index hindex => hget index (mem_range.mp hindex), filterMap_eq_map']
  have hnone : (List.range count).find? (fun index : ℕ => (parts.get? (index : ℚ)).isNone) =
      none := by
    rw [find?_eq_none]
    intro index hindex
    simp [hget index (mem_range.mp hindex)]
  rw [orderedParts, Nat.ceil_natCast, hnone, hparts]

/-- The parts hold exactly the pieces that have arrived, each under its index. -/
def HoldsPieces (responseTopic : String) (response : Response) (arrived : List MqttMessage)
    (parts : OrderedMap ℚ String) : Prop :=
  ∀ key part, parts.get? key = some part ↔
    ∃ index < pieceCount response, (index : ℚ) = key ∧
      base64Encode (piece response.payload index) = part ∧
      pieceMessage responseTopic response index ∈ arrived

section

variable (h : HoldsPieces responseTopic response arrived parts)
include h

/-- Another arrival of a piece stores it where it belongs. -/
theorem HoldsPieces.set
    (hindex : index < pieceCount response) :
    HoldsPieces responseTopic response (arrived ++ [pieceMessage responseTopic response index])
      (parts.set index (base64Encode (piece response.payload index))) := by
  intro key part
  rw [OrderedMap.get?_set]
  by_cases hkey : (index : ℚ) = key
  · rw [if_pos hkey, Option.some.injEq]
    constructor
    · intro hpart
      exact ⟨index, hindex, hkey, hpart, by simp⟩
    · rintro ⟨other, -, hother, hpart, -⟩
      have : other = index := by exact_mod_cast hother.trans hkey.symm
      rw [← this, hpart]
  · rw [if_neg hkey, h key part]
    refine exists_congr fun other => and_congr_right fun _ => and_congr_right fun hother =>
      and_congr_right fun _ => ?_
    have hne : other ≠ index := by
      rintro rfl
      exact hkey hother
    simp [(pieceMessage_injective responseTopic response).ne hne]

/-- A message that is no piece leaves what the parts hold. -/
theorem HoldsPieces.of_ne
    (hne : ∀ index < pieceCount response, pieceMessage responseTopic response index ≠ message) :
    HoldsPieces responseTopic response (arrived ++ [message]) parts := by
  intro key part
  rw [h key part]
  refine exists_congr fun index => and_congr_right fun hindex => ?_
  simp [hne index hindex]

/-- The number of parts counts the distinct pieces that have arrived. -/
theorem HoldsPieces.size_eq :
    parts.size = ((Finset.range (pieceCount response)).filter
      fun index => pieceMessage responseTopic response index ∈ arrived).card := by
  have hinjective : Function.Injective (Nat.cast : ℕ → ℚ) := Nat.cast_injective
  rw [OrderedMap.size_eq_card_keys, ← Finset.card_image_of_injective _ hinjective]
  congr 1
  ext key
  rw [mem_toFinset, OrderedMap.mem_keys_iff, Finset.mem_image]
  constructor
  · rintro ⟨part, hpart⟩
    obtain ⟨index, hindex, hkey, -, hmem⟩ := (h key part).mp hpart
    exact ⟨index, by simpa [hindex] using hmem, hkey⟩
  · rintro ⟨index, hindex, hkey⟩
    rw [Finset.mem_filter, Finset.mem_range] at hindex
    exact ⟨_, (h key _).mpr ⟨index, hindex.1, hkey, rfl, hindex.2⟩⟩

/-- There are fewer parts than pieces exactly while a piece is missing. -/
theorem HoldsPieces.size_lt_iff :
    parts.size < pieceCount response ↔
      ∃ index < pieceCount response, pieceMessage responseTopic response index ∉ arrived := by
  rw [h.size_eq]
  nth_rewrite 2 [← Finset.card_range (pieceCount response)]
  constructor
  · intro hlt
    by_contra hall
    push Not at hall
    rw [Finset.filter_true_of_mem fun index hindex => hall index (Finset.mem_range.mp hindex)]
      at hlt
    exact lt_irrefl _ hlt
  · rintro ⟨index, hindex, hmissing⟩
    exact Finset.card_lt_card
      (Finset.filter_ssubset.mpr ⟨index, Finset.mem_range.mpr hindex, hmissing⟩)

/-- With no piece missing the parts come out in order. -/
theorem HoldsPieces.orderedParts_eq
    (hall : ∀ index < pieceCount response, pieceMessage responseTopic response index ∈ arrived) :
    orderedParts parts (pieceCount response) = .ok ((List.range (pieceCount response)).map
      fun index => base64Encode (piece response.payload index)) :=
  orderedParts_of_get? (fun index : ℕ => base64Encode (piece response.payload index))
    fun (index : ℕ) hindex => (h _ _).mpr ⟨index, hindex, rfl, rfl, hall index hindex⟩

end

/-- A call that has some pieces of its response and waits for the others. -/
structure Collecting (responseTopic : String) (response : Response)
    (arrived : List MqttMessage) (waiter : Waiter) : Prop where
  listening : waiter.listening
  settlements : waiter.settlements = []
  missing : ∃ index < pieceCount response, pieceMessage responseTopic response index ∉ arrived
  parts : HoldsPieces responseTopic response arrived waiter.chunkParts

theorem publishResponse_subset_iff (responseTopic : String)
    (h : ¬ (response.payload.length ≤ responseChunkBytes ∨ response.id.isNone))
    (arrived : List MqttMessage) :
    publishResponse responseTopic response ⊆ arrived ↔
      ∀ index < pieceCount response, pieceMessage responseTopic response index ∈ arrived := by
  rw [publishResponse_chunked h]
  simp [subset_def, pieceCount]

theorem restore_of_parts {chunkCount : Number} {ordered : List String} {json : Json}
    {payload : List UInt8} (hordered : orderedParts waiter.chunkParts chunkCount.value = .ok ordered)
    (hparse : Json.parse (utf8Text (ordered.flatMap base64Decode)) = some json) :
    restore requestId waiter chunkCount payload =
      answer requestId waiter json (ordered.flatMap base64Decode) := by
  rw [restore, hordered]
  dsimp only
  rw [hparse]

/-- The last missing piece: the parts decode to the serialized response and the
call settles on it. -/
theorem restore_complete (waiter : Waiter) (hid : response.id = some requestId)
    (hsettlements : waiter.settlements = [])
    (hparts : HoldsPieces responseTopic response arrived waiter.chunkParts)
    (hall : ∀ index < pieceCount response,
      pieceMessage responseTopic response index ∈ arrived) (payload : List UInt8) :
    restore requestId waiter (.ofNat (pieceCount response)) payload = settledOn response := by
  have hbytes : ((List.range (pieceCount response)).map
      fun index => base64Encode (piece response.payload index)).flatMap base64Decode =
        response.payload := by
    rw [flatMap_map]
    simp only [base64Decode_base64Encode]
    exact flatten_chunks (by decide) response.payload
  have hparse : Json.parse (utf8Text response.payload) = some (.obj response.fields) :=
    parse_toVec response.toJson
  have hnames : namesOther requestId ((Json.obj response.fields).field? "id") = false := by
    change namesOther requestId (response.toJson.field? "id") = false
    rw [field?_id_toJson, hid]
    exact namesOther_self requestId
  have hordered := hparts.orderedParts_eq hall
  rw [← Number.value_ofNat] at hordered
  rw [restore_of_parts hordered (hbytes.symm ▸ hparse), hbytes]
  simp only [answer, hnames, Bool.false_eq_true, if_false]
  rw [Waiter.settle, hsettlements]
  rfl

section

variable (hid : response.id = some requestId)
include hid

/-- What a piece does to a collecting call. -/
theorem onMessage_piece
    (h : Collecting responseTopic response arrived waiter) (hindex : index < pieceCount response) :
    let message := pieceMessage responseTopic response index
    if ∀ other < pieceCount response,
      pieceMessage responseTopic response other ∈ arrived ++ [message]
    then onMessage requestId responseTopic waiter message = settledOn response
    else Collecting responseTopic response (arrived ++ [message])
      (onMessage requestId responseTopic waiter message) := by
  intro message
  have hdata : base64Encode (piece response.payload index) ≠ "" :=
    base64Encode_ne_empty (piece_ne_nil hindex)
  have hreceived : onMessage requestId responseTopic waiter message =
      collect requestId waiter ⟨.ofNat index, .ofNat (pieceCount response),
        base64Encode (piece response.payload index)⟩ message.payload :=
    onMessage_envelope requestId responseTopic waiter (chunkEnvelope response.id response.payload
      index (piece response.payload index)) rfl hid hdata
  have hparts := h.parts.set hindex
  rw [hreceived, collect]
  simp only [Number.value_ofNat]
  split
  · next hall =>
    have hfull : ¬ (waiter.chunkParts.set (index : ℚ)
        (base64Encode (piece response.payload index))).size < pieceCount response := by
      rw [hparts.size_lt_iff]
      rintro ⟨other, hother, hmissing⟩
      exact hmissing (hall other hother)
    rw [if_neg (by exact_mod_cast hfull)]
    exact restore_complete ⟨waiter.listening, waiter.chunkParts.set (index : ℚ)
      (base64Encode (piece response.payload index)), waiter.settlements⟩ hid h.settlements
      hparts hall _
  · next hmissing =>
    push Not at hmissing
    rw [if_pos (by exact_mod_cast hparts.size_lt_iff.mpr hmissing)]
    exact ⟨h.listening, h.settlements, hmissing, hparts⟩

/-- The message of another call does nothing to a collecting call. -/
theorem Collecting.of_carriesOtherId
    (hchunked : ¬ (response.payload.length ≤ responseChunkBytes ∨ response.id.isNone))
    (h : Collecting responseTopic response arrived waiter)
    (hother : CarriesOtherId requestId message) :
    Collecting responseTopic response (arrived ++ [message])
      (onMessage requestId responseTopic waiter message) := by
  have hne (index : ℕ) (hindex : index < pieceCount response) :
      pieceMessage responseTopic response index ≠ message := by
    rintro rfl
    refine not_carriesOtherId_of_mem responseTopic hid ?_ hother
    rw [publishResponse_chunked hchunked]
    exact mem_map_of_mem (mem_range.mpr hindex)
  rw [onMessage_of_carriesOtherId hother]
  obtain ⟨index, hindex, hmissing⟩ := h.missing
  exact ⟨h.listening, h.settlements,
    ⟨index, hindex, by simp [hmissing, hne index hindex]⟩, h.parts.of_ne hne⟩

/-! ## The round trip -/

/-- A plain response settles the call when it arrives and not before. -/
theorem settledWhenComplete_of_plain
    (hplain : response.payload.length ≤ responseChunkBytes ∨ response.id.isNone) :
    SettlesWhenComplete requestId responseTopic response := by
  have hsubset (arrived : List MqttMessage) :
      publishResponse responseTopic response ⊆ arrived ↔
        ⟨responseTopic, response.payload⟩ ∈ arrived := by
    rw [publishResponse_plain hplain]
    simp
  refine waitForResponse_of_pending
    (fun arrived waiter => ⟨responseTopic, response.payload⟩ ∉ arrived ∧ waiter = .attached)
    (by simp) ?_ ?_ ?_
  · rintro arrived _ ⟨-, rfl⟩
    exact ⟨rfl, rfl⟩
  · rintro arrived _ ⟨hmissing, -⟩
    rwa [hsubset]
  · rintro arrived _ message ⟨hmissing, rfl⟩ (hmem | hother)
    · rw [publishResponse_plain hplain, mem_singleton] at hmem
      subst hmem
      rw [if_pos ((hsubset _).mpr (by simp)), onMessage_response, hid, Option.map_some,
        namesOther_self, if_neg (by decide)]
      rfl
    · have hne : message ∉ publishResponse responseTopic response := fun hmem =>
        not_carriesOtherId_of_mem responseTopic hid hmem hother
      rw [publishResponse_plain hplain, mem_singleton] at hne
      have hstill : ⟨responseTopic, response.payload⟩ ∉ arrived ++ [message] := by
        simp [hmissing, Ne.symm hne]
      rw [if_neg (by rwa [hsubset]), onMessage_of_carriesOtherId hother]
      exact ⟨hstill, rfl⟩

/-- A chunked response settles the call when its last piece arrives and not
before. -/
theorem settledWhenComplete_of_chunked
    (hchunked : ¬ (response.payload.length ≤ responseChunkBytes ∨ response.id.isNone)) :
    SettlesWhenComplete requestId responseTopic response := by
  have hsubset := publishResponse_subset_iff responseTopic hchunked
  refine waitForResponse_of_pending (Collecting responseTopic response)
    ⟨rfl, rfl, ?_, ?_⟩ (fun _ _ h => ⟨h.listening, h.settlements⟩) ?_ ?_
  · have hlength : responseChunkBytes < response.payload.length := by
      by_contra hshort
      exact hchunked (Or.inl (not_lt.mp hshort))
    have hcount : response.payload.length ≤ pieceCount response * responseChunkBytes :=
      divCeil_mul_ge (by decide)
    refine ⟨0, ?_, by simp⟩
    by_contra hzero
    rw [Nat.eq_zero_of_not_pos hzero, Nat.zero_mul] at hcount
    omega
  · intro key part
    simp [Waiter.attached]
  · intro arrived waiter h
    obtain ⟨index, hindex, hmissing⟩ := h.missing
    rw [hsubset]
    exact fun hall => hmissing (hall index hindex)
  · intro arrived waiter message h hmessage
    by_cases hmem : message ∈ publishResponse responseTopic response
    · rw [publishResponse_chunked hchunked, mem_map] at hmem
      obtain ⟨index, hindex, rfl⟩ := hmem
      simp only [hsubset]
      exact onMessage_piece hid h (mem_range.mp hindex)
    · have hnext := h.of_carriesOtherId hid hchunked (hmessage.resolve_left hmem)
      obtain ⟨index, hindex, hmissing⟩ := hnext.missing
      rw [if_neg]
      · exact hnext
      · rw [hsubset]
        exact fun hall => hmissing (hall index hindex)

/-- A call that receives the messages of its response and those of other calls
settles with the last missing message of the response. -/
theorem waitForResponse_settledWhenComplete :
    SettlesWhenComplete requestId responseTopic response := by
  by_cases hplain : response.payload.length ≤ responseChunkBytes ∨ response.id.isNone
  · exact settledWhenComplete_of_plain hid hplain
  · exact settledWhenComplete_of_chunked hid hplain

end

end Nobie.Yeonjang
