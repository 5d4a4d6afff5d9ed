/-
# Maps and sets that keep the order of insertion

The `Map` and `Set` of the source iterate in the order of insertion and hold a
key once. Here a map is its list of entries together with the proof that no key
repeats, so that its size is the number of keys and a lookup has one answer.
-/

import Mathlib.Data.List.Nodup
import Mathlib.Data.List.Basic
import Mathlib.Data.Finset.Card

namespace Nobie.Foundation

open List

universe u v w

/-- Where no two rows have one key, a row is found under its key. -/
theorem find?_key_eq_some_iff {A : Type u} {K : Type v} [DecidableEq K] {key : A → K}
    {rows : List A} (hnodup : (rows.map key).Nodup) {found : K} {row : A} :
    rows.find? (fun row => key row = found) = some row ↔ row ∈ rows ∧ key row = found := by
  constructor
  · exact fun h => ⟨mem_of_find?_eq_some h, by simpa using find?_some h⟩
  · rintro ⟨hmem, rfl⟩
    have hsome : (rows.find? fun other => key other = key row).isSome :=
      find?_isSome.mpr ⟨row, hmem, decide_eq_true rfl⟩
    obtain ⟨other, hother⟩ := Option.isSome_iff_exists.mp hsome
    have hkey : key other = key row := by simpa using find?_some hother
    rw [hother, inj_on_of_nodup_map hnodup (mem_of_find?_eq_some hother) hmem hkey]

/-- A map in insertion order. -/
structure OrderedMap (K : Type u) (V : Type v) where
  entries : List (K × V)
  nodup : (entries.map Prod.fst).Nodup

namespace OrderedMap

variable {K : Type u} {V : Type v} [DecidableEq K]

instance [DecidableEq V] : DecidableEq (OrderedMap K V) := fun first second =>
  decidable_of_iff (first.entries = second.entries) (by cases first; cases second; simp)

def empty : OrderedMap K V := ⟨[], by simp⟩

instance : EmptyCollection (OrderedMap K V) := ⟨empty⟩

variable (map : OrderedMap K V) (key : K) (value : V) {entries : List (K × V)} {entry : K × V}

def keys : List K := map.entries.map Prod.fst

def size : ℕ := map.entries.length

/-- The value of the first entry under a key. -/
def lookup : List (K × V) → K → Option V
  | [], _ => none
  | (key', value) :: rest, key => if key' = key then some value else lookup rest key

def get? : Option V := lookup map.entries key

/-- A value written under a key already present keeps the key's place. -/
def insertEntry (entries : List (K × V)) (key : K) (value : V) : List (K × V) :=
  match entries with
  | [] => [(key, value)]
  | (key', value') :: rest =>
    if key' = key then (key, value) :: rest else (key', value') :: insertEntry rest key value

variable {other : K}

theorem mem_keys_insertEntry {key : K} {value : V} :
    other ∈ (insertEntry entries key value).map Prod.fst ↔
      other = key ∨ other ∈ entries.map Prod.fst := by
  induction entries with
  | nil => simp [insertEntry]
  | cons entry rest ih =>
    obtain ⟨key', value'⟩ := entry
    unfold insertEntry
    split
    · next heq =>
      subst heq
      simp
    · simp only [map_cons, mem_cons, ih]
      tauto

theorem nodup_insertEntry (hnodup : (entries.map Prod.fst).Nodup) (key : K) (value : V) :
    ((insertEntry entries key value).map Prod.fst).Nodup := by
  induction entries with
  | nil => simp [insertEntry]
  | cons entry rest ih =>
    obtain ⟨key', value'⟩ := entry
    rw [map_cons, nodup_cons] at hnodup
    unfold insertEntry
    split
    · next heq =>
      subst heq
      simpa using hnodup
    · next hne =>
      rw [map_cons, nodup_cons, mem_keys_insertEntry]
      refine ⟨?_, ih hnodup.2⟩
      rintro (heq | hmem)
      · exact hne heq
      · exact hnodup.1 hmem

def set : OrderedMap K V :=
  ⟨insertEntry map.entries key value, nodup_insertEntry map.nodup key value⟩

def erase : OrderedMap K V :=
  ⟨map.entries.filter fun entry => entry.1 ≠ key,
    map.nodup.sublist (List.Sublist.map _ List.filter_sublist)⟩

/-- Keep the entries that pass a test. -/
def filter (keep : K → V → Bool) : OrderedMap K V :=
  ⟨map.entries.filter fun entry => keep entry.1 entry.2,
    map.nodup.sublist (List.Sublist.map _ List.filter_sublist)⟩

/-- Rewrite every value in place. -/
def mapValues (f : K → V → V) : OrderedMap K V :=
  ⟨map.entries.map fun entry => (entry.1, f entry.1 entry.2), by
    have hkeys : (map.entries.map fun entry => (entry.1, f entry.1 entry.2)).map Prod.fst =
        map.entries.map Prod.fst := by simp [Function.comp_def]
    rw [hkeys]
    exact map.nodup⟩

/-! ## Lookups -/

@[simp]
theorem get?_empty : (∅ : OrderedMap K V).get? key = none := rfl

theorem lookup_insertEntry (entries : List (K × V)) (key : K) (value : V) (other : K) :
    lookup (insertEntry entries key value) other =
      if key = other then some value else lookup entries other := by
  induction entries with
  | nil => by_cases h : key = other <;> simp [insertEntry, lookup, h]
  | cons entry rest ih =>
    obtain ⟨key', value'⟩ := entry
    unfold insertEntry
    split
    · next heq =>
      subst heq
      by_cases h : key' = other <;> simp [lookup, h]
    · next hne =>
      by_cases hother : key' = other
      · subst hother
        have hkey : ¬ key = key' := fun h => hne h.symm
        simp [lookup, hkey]
      · simpa [lookup, hother] using ih

theorem get?_set (other : K) :
    (map.set key value).get? other = if key = other then some value else map.get? other :=
  lookup_insertEntry map.entries key value other

@[simp]
theorem get?_set_self : (map.set key value).get? key = some value := by rw [get?_set, if_pos rfl]

theorem get?_set_of_ne {key : K} (h : key ≠ other) :
    (map.set key value).get? other = map.get? other := by
  rw [get?_set, if_neg h]

theorem get?_erase (key other : K) :
    (map.erase key).get? other = if key = other then none else map.get? other := by
  obtain ⟨entries, hnodup⟩ := map
  unfold erase get?
  dsimp only
  clear hnodup
  induction entries with
  | nil => simp [lookup]
  | cons entry rest ih =>
    obtain ⟨key', value'⟩ := entry
    by_cases hkey : key' = key
    · subst hkey
      by_cases hother : key' = other
      · simpa [hother] using ih
      · simpa [lookup, hother] using ih
    · by_cases hother : key' = other
      · subst hother
        have : ¬ key = key' := fun h => hkey h.symm
        simp [lookup, hkey, this]
      · simpa [lookup, hkey, hother] using ih

@[simp]
theorem get?_erase_self : (map.erase key).get? key = none := by rw [get?_erase, if_pos rfl]

theorem get?_foldl_erase (keys : List K) (map : OrderedMap K V) (key : K) :
    (keys.foldl erase map).get? key = if key ∈ keys then none else map.get? key := by
  induction keys generalizing map with
  | nil => simp
  | cons first rest ih =>
    rw [foldl_cons, ih, get?_erase]
    by_cases hrest : key ∈ rest
    · simp [hrest]
    · by_cases hfirst : first = key
      · simp [hfirst]
      · have : ¬ key = first := fun h => hfirst h.symm
        simp [hrest, hfirst, this]

theorem lookup_eq_none_of_not_mem {key : K} (h : key ∉ entries.map Prod.fst) :
    lookup entries key = none := by
  induction entries with
  | nil => rfl
  | cons entry rest ih =>
    obtain ⟨key', value'⟩ := entry
    rw [map_cons, mem_cons, not_or] at h
    have hkey : ¬ key' = key := fun heq => h.1 heq.symm
    simp [lookup, hkey, ih h.2]

theorem mem_entries_of_lookup {key : K} {value : V} (h : lookup entries key = some value) :
    (key, value) ∈ entries := by
  induction entries with
  | nil => exact absurd h (by simp [lookup])
  | cons entry rest ih =>
    obtain ⟨key', value'⟩ := entry
    rw [lookup] at h
    split at h
    · next heq => exact heq ▸ Option.some.inj h ▸ mem_cons_self
    · exact mem_cons_of_mem _ (ih h)

theorem mem_entries_of_get? {map : OrderedMap K V} {key : K} {value : V}
    (h : map.get? key = some value) : (key, value) ∈ map.entries :=
  mem_entries_of_lookup h

theorem get?_of_mem_entries {map : OrderedMap K V} {key : K} {value : V}
    (h : (key, value) ∈ map.entries) : map.get? key = some value := by
  obtain ⟨entries, hnodup⟩ := map
  unfold get?
  induction entries with
  | nil => cases h
  | cons entry rest ih =>
    obtain ⟨key', value'⟩ := entry
    rw [map_cons, nodup_cons] at hnodup
    rcases mem_cons.mp h with heq | hrest
    · cases heq
      rw [lookup, if_pos rfl]
    · have hkey : key ∈ rest.map Prod.fst := mem_map.mpr ⟨_, hrest, rfl⟩
      have hne : key' ≠ key := fun heq => hnodup.1 (heq ▸ hkey)
      rw [lookup, if_neg hne]
      exact ih hnodup.2 hrest

/-- An entry and what is left without it make up the map. -/
theorem perm_erase {map : OrderedMap K V} {key : K} {value : V} (h : map.get? key = some value) :
    map.entries.Perm ((key, value) :: (map.erase key).entries) := by
  have hnodup : map.entries.Nodup := List.Nodup.of_map _ map.nodup
  have herased : (key, value) ∉ (map.erase key).entries := fun hmem => by
    have hkey := (mem_filter.mp hmem).2
    simp at hkey
  refine (perm_ext_iff_of_nodup hnodup
    (nodup_cons.mpr ⟨herased, hnodup.filter _⟩)).mpr fun entry => ?_
  rw [mem_cons]
  constructor
  · intro hentry
    by_cases hkey : entry.1 = key
    · left
      have hvalue := get?_of_mem_entries hentry
      rw [hkey, h] at hvalue
      exact Prod.ext hkey (Option.some.inj hvalue).symm
    · exact .inr (mem_filter.mpr ⟨hentry, by simpa using hkey⟩)
  · rintro (rfl | hentry)
    · exact mem_entries_of_get? h
    · exact (mem_filter.mp hentry).1

theorem mem_of_mem_insertEntry {key : K} {value : V} (h : entry ∈ insertEntry entries key value) :
    entry = (key, value) ∨ entry ∈ entries := by
  induction entries with
  | nil => exact Or.inl (mem_singleton.mp h)
  | cons first rest ih =>
    obtain ⟨key', value'⟩ := first
    unfold insertEntry at h
    split at h
    · exact (mem_cons.mp h).imp_right (mem_cons_of_mem _)
    · rcases mem_cons.mp h with rfl | hrest
      · exact Or.inr mem_cons_self
      · exact (ih hrest).imp_right (mem_cons_of_mem _)

/-- The entries of a map built from a list come from the list. -/
theorem mem_of_mem_foldl_set {fields : List (K × V)}
    (h : entry ∈ (fields.foldl (fun map field => map.set field.1 field.2) map).entries) :
    entry ∈ map.entries ∨ entry ∈ fields := by
  induction fields generalizing map with
  | nil => exact Or.inl h
  | cons first rest ih =>
    rcases ih _ h with hset | hrest
    · rcases mem_of_mem_insertEntry hset with rfl | hbefore
      · exact Or.inr mem_cons_self
      · exact Or.inl hbefore
    · exact Or.inr (mem_cons_of_mem _ hrest)

theorem insertEntry_of_not_mem {key : K} (h : key ∉ entries.map Prod.fst) :
    insertEntry entries key value = entries ++ [(key, value)] := by
  induction entries with
  | nil => rfl
  | cons entry rest ih =>
    obtain ⟨key', value'⟩ := entry
    rw [map_cons, mem_cons, not_or] at h
    rw [insertEntry, if_neg fun heq => h.1 heq.symm, ih h.2, cons_append]

/-- A new key is written behind the others. -/
theorem entries_set_of_none {map : OrderedMap K V} {key : K} (h : map.get? key = none) :
    (map.set key value).entries = map.entries ++ [(key, value)] := by
  apply insertEntry_of_not_mem
  intro hkey
  obtain ⟨entry, hentry, rfl⟩ := mem_map.mp hkey
  rw [get?_of_mem_entries hentry] at h
  cases h

theorem keys_insertEntry_of_mem {key : K} (h : key ∈ entries.map Prod.fst) :
    (insertEntry entries key value).map Prod.fst = entries.map Prod.fst := by
  induction entries with
  | nil => cases h
  | cons entry rest ih =>
    obtain ⟨key', value'⟩ := entry
    by_cases heq : key' = key
    · rw [insertEntry, if_pos heq, map_cons, map_cons, heq]
    · rw [insertEntry, if_neg heq, map_cons, map_cons,
        ih ((mem_cons.mp h).resolve_left fun hkey => heq hkey.symm)]

/-- The entry written is one of the entries. -/
theorem mem_insertEntry_self (entries : List (K × V)) (key : K) (value : V) :
    (key, value) ∈ insertEntry entries key value :=
  mem_entries_of_lookup (by rw [lookup_insertEntry, if_pos rfl])

theorem mem_insertEntry_of_ne {key : K} (hmem : entry ∈ entries) (hne : entry.1 ≠ key) :
    entry ∈ insertEntry entries key value := by
  induction entries with
  | nil => cases hmem
  | cons first rest ih =>
    obtain ⟨key', value'⟩ := first
    unfold insertEntry
    split
    · next heq =>
      refine mem_cons_of_mem _ ((mem_cons.mp hmem).resolve_left ?_)
      rintro rfl
      exact hne heq
    · rcases mem_cons.mp hmem with rfl | hrest
      · exact mem_cons_self
      · exact mem_cons_of_mem _ (ih hrest)

/-- The entries after a write: the one written and those under other keys. -/
theorem mem_insertEntry_iff (hnodup : (entries.map Prod.fst).Nodup) {key : K} {value : V} :
    entry ∈ insertEntry entries key value ↔
      entry = (key, value) ∨ entry ∈ entries ∧ entry.1 ≠ key := by
  constructor
  · intro hmem
    have hvalue : lookup (insertEntry entries key value) entry.1 = some entry.2 :=
      (OrderedMap.mk _ (nodup_insertEntry hnodup key value)).get?_of_mem_entries hmem
    rw [lookup_insertEntry] at hvalue
    split at hvalue
    · next heq => exact Or.inl (Prod.ext heq.symm (Option.some.inj hvalue).symm)
    · next hne => exact Or.inr ⟨mem_entries_of_lookup hvalue, Ne.symm hne⟩
  · rintro (rfl | ⟨hmem, hne⟩)
    · exact mem_insertEntry_self entries key value
    · exact mem_insertEntry_of_ne value hmem hne

section Values

variable {W : Type w} (f : K → V → W)

theorem insertEntry_map (entries : List (K × V)) (key : K) (value : V) :
    insertEntry (entries.map fun entry => (entry.1, f entry.1 entry.2)) key (f key value) =
      (insertEntry entries key value).map fun entry => (entry.1, f entry.1 entry.2) := by
  induction entries with
  | nil => rfl
  | cons entry rest ih =>
    obtain ⟨key', value'⟩ := entry
    rw [map_cons, insertEntry, insertEntry]
    split
    · rfl
    · rw [ih, map_cons]

/-- Writing the images of values gives the images of what writing the values gives. -/
theorem foldl_set_map (entries : List (K × V)) (map : OrderedMap K V) (image : OrderedMap K W)
    (h : image.entries = map.entries.map fun entry => (entry.1, f entry.1 entry.2)) :
    ((entries.map fun entry => (entry.1, f entry.1 entry.2)).foldl
        (fun map field => map.set field.1 field.2) image).entries =
      (entries.foldl (fun map field => map.set field.1 field.2) map).entries.map
        fun entry => (entry.1, f entry.1 entry.2) := by
  induction entries generalizing map image with
  | nil => exact h
  | cons entry rest ih =>
    rw [map_cons, foldl_cons, foldl_cons]
    apply ih
    change insertEntry image.entries entry.1 (f entry.1 entry.2) = _
    rw [h, insertEntry_map]
    rfl

end Values

/-- A list without repeated keys is the list of the entries it writes. -/
theorem entries_foldl_set (entries : List (K × V)) (map : OrderedMap K V)
    (hnodup : ((map.entries ++ entries).map Prod.fst).Nodup) :
    (entries.foldl (fun map field => map.set field.1 field.2) map).entries =
      map.entries ++ entries := by
  induction entries generalizing map with
  | nil => exact (append_nil _).symm
  | cons entry rest ih =>
    have hfresh : entry.1 ∉ map.entries.map Prod.fst := by
      rw [map_append, map_cons, nodup_append] at hnodup
      exact fun hmem => hnodup.2.2 _ hmem _ mem_cons_self rfl
    have hset : (map.set entry.1 entry.2).entries = map.entries ++ [entry] :=
      insertEntry_of_not_mem entry.2 hfresh
    rw [foldl_cons, ih _ (by rw [hset]; simpa using hnodup), hset, append_assoc, singleton_append]

theorem get?_filter (keep : K → V → Bool) (key : K) :
    (map.filter keep).get? key = (map.get? key).filter (keep key) := by
  obtain ⟨entries, hnodup⟩ := map
  unfold filter get?
  induction entries with
  | nil => rfl
  | cons entry rest ih =>
    obtain ⟨key', value'⟩ := entry
    rw [map_cons, nodup_cons] at hnodup
    have ih := ih hnodup.2
    by_cases hkey : key' = key
    · subst hkey
      rw [lookup_eq_none_of_not_mem hnodup.1, Option.filter_none] at ih
      cases hkeep : keep key' value' <;> simp [lookup, hkeep, Option.filter, ih]
    · cases hkeep : keep key' value' <;> simpa [lookup, hkeep, hkey] using ih

theorem get?_mapValues (f : K → V → V) (key : K) :
    (map.mapValues f).get? key = (map.get? key).map (f key) := by
  obtain ⟨entries, hnodup⟩ := map
  unfold mapValues get?
  dsimp only
  clear hnodup
  induction entries with
  | nil => rfl
  | cons entry rest ih =>
    obtain ⟨key', value'⟩ := entry
    by_cases hkey : key' = key
    · subst hkey
      simp [lookup]
    · simpa [lookup, hkey] using ih

theorem mem_keys_iff : key ∈ map.keys ↔ ∃ value, map.get? key = some value := by
  obtain ⟨entries, hnodup⟩ := map
  unfold keys get?
  dsimp only
  clear hnodup
  induction entries with
  | nil => simp [lookup]
  | cons entry rest ih =>
    obtain ⟨key', value'⟩ := entry
    by_cases hkey : key' = key
    · simp [lookup, hkey]
    · have : ¬ key = key' := fun h => hkey h.symm
      simpa [lookup, hkey, this] using ih

/-- A map holds as many entries as it has keys. -/
theorem size_eq_card_keys : map.size = map.keys.toFinset.card := by
  rw [keys, toFinset_card_of_nodup map.nodup, length_map, size]

/-! ## Folds -/

section Folds

variable {A : Type w} (key : A → K)

variable (map : OrderedMap K V)

/-- A fold of writes holds the value of the last item under each key. -/
theorem get?_foldl_set (value : A → V) (items : List A) (map : OrderedMap K V) (found : K) :
    (items.foldl (fun map item => map.set (key item) (value item)) map).get? found =
      ((items.reverse.find? fun item => key item = found).map value).or (map.get? found) := by
  induction items generalizing map with
  | nil => rfl
  | cons item rest ih =>
    rw [foldl_cons, ih, get?_set, reverse_cons, find?_append]
    cases rest.reverse.find? fun item => key item = found with
    | some other => rfl
    | none =>
      by_cases hkey : key item = found
      · simp [hkey]
      · simp [hkey]

/-- Where no two items have one key, the value of each stands under its key. -/
theorem get?_foldl_set_of_mem (value : A → V) {items : List A} (map : OrderedMap K V)
    (hnodup : (items.map key).Nodup) {item : A} (hitem : item ∈ items) :
    (items.foldl (fun map item => map.set (key item) (value item)) map).get? (key item) =
      some (value item) := by
  have hreverse : (items.reverse.map key).Nodup := by
    rw [map_reverse]
    exact nodup_reverse.mpr hnodup
  rw [get?_foldl_set key value,
    (find?_key_eq_some_iff hreverse).mpr ⟨mem_reverse.mpr hitem, rfl⟩]
  rfl

/-- A fold of updates has gathered, under each key, the items with the key. -/
theorem getD_foldl_update (update : V → A → V) (start : V) (items : List A)
    (map : OrderedMap K V) (found : K) :
    ((items.foldl (fun map item =>
        map.set (key item) (update ((map.get? (key item)).getD start) item)) map).get? found).getD
          start =
      (items.filter fun item => key item = found).foldl update ((map.get? found).getD start) := by
  induction items generalizing map with
  | nil => rfl
  | cons item rest ih =>
    rw [foldl_cons, ih, get?_set, filter_cons]
    by_cases hkey : key item = found
    · simp [hkey]
    · simp [hkey]

/-- A map written entry by entry with other values. -/
theorem get?_foldl_entries {W : Type w} (f : V → W) (map : OrderedMap K V) (found : K) :
    (map.entries.foldl (fun result entry => result.set entry.1 (f entry.2))
      (∅ : OrderedMap K W)).get? found = (map.get? found).map f := by
  rw [get?_foldl_set (fun entry : K × V => entry.1) (fun entry : K × V => f entry.2), get?_empty,
    Option.or_none]
  cases hentry : map.entries.reverse.find? fun entry => entry.1 = found with
  | none =>
    rw [find?_eq_none] at hentry
    cases hvalue : map.get? found with
    | none => rfl
    | some value =>
      have hmem := mem_reverse.mpr (mem_entries_of_get? hvalue)
      simpa using hentry _ hmem
  | some entry =>
    have hkey := find?_some hentry
    rw [decide_eq_true_eq] at hkey
    subst hkey
    rw [get?_of_mem_entries (mem_reverse.mp (mem_of_find?_eq_some hentry))]
    rfl

end Folds
end OrderedMap

/-- A set in insertion order. -/
structure OrderedSet (K : Type u) where
  elements : List K
  nodup : elements.Nodup

namespace OrderedSet

variable {K : Type u} [DecidableEq K]

instance : DecidableEq (OrderedSet K) := fun first second =>
  decidable_of_iff (first.elements = second.elements) (by cases first; cases second; simp)

instance : EmptyCollection (OrderedSet K) := ⟨⟨[], List.nodup_nil⟩⟩

instance : Membership K (OrderedSet K) := ⟨fun set element => element ∈ set.elements⟩

instance (element : K) (set : OrderedSet K) : Decidable (element ∈ set) :=
  inferInstanceAs (Decidable (element ∈ set.elements))

def add (set : OrderedSet K) (element : K) : OrderedSet K :=
  if h : element ∈ set.elements then set
  else ⟨set.elements ++ [element], by
    rw [List.nodup_append]
    refine ⟨set.nodup, List.nodup_singleton _, ?_⟩
    intro first hfirst second hsecond heq
    rw [List.mem_singleton] at hsecond
    exact h (hsecond ▸ heq ▸ hfirst)⟩

omit [DecidableEq K] in
@[simp]
theorem mem_empty (element : K) : ¬ element ∈ (∅ : OrderedSet K) := not_mem_nil

@[simp]
theorem mem_add (set : OrderedSet K) (element other : K) :
    other ∈ set.add element ↔ other = element ∨ other ∈ set := by
  unfold add
  split
  · next h =>
    constructor
    · exact Or.inr
    · rintro (rfl | hmem)
      · exact h
      · exact hmem
  · change other ∈ set.elements ++ [element] ↔ _
    rw [mem_append, mem_singleton, or_comm]
    rfl

/-- The set of the elements of a list. -/
def ofList (elements : List K) : OrderedSet K := elements.foldl add ∅

theorem mem_foldl_add (elements : List K) (set : OrderedSet K) (element : K) :
    element ∈ elements.foldl add set ↔ element ∈ set ∨ element ∈ elements := by
  induction elements generalizing set with
  | nil => simp
  | cons first rest ih =>
    rw [foldl_cons, ih, mem_add, mem_cons]
    tauto

@[simp]
theorem mem_ofList (elements : List K) (element : K) :
    element ∈ ofList elements ↔ element ∈ elements := by
  simp [ofList, mem_foldl_add]

end OrderedSet

/-- A list without repetitions is the set of its elements. -/
theorem OrderedSet.elements_ofList {K : Type u} [DecidableEq K] {elements : List K}
    (hnodup : elements.Nodup) : (OrderedSet.ofList elements).elements = elements := by
  have hfold : ∀ (rest : List K) (set : OrderedSet K), (set.elements ++ rest).Nodup →
      (rest.foldl OrderedSet.add set).elements = set.elements ++ rest := by
    intro rest
    induction rest with
    | nil => intro set _; exact (append_nil _).symm
    | cons element rest ih =>
      intro set hdistinct
      have hnew : element ∉ set.elements := fun hmem =>
        disjoint_of_nodup_append hdistinct hmem mem_cons_self
      have hadd : (set.add element).elements = set.elements ++ [element] := by
        rw [OrderedSet.add, dif_neg hnew]
      rw [foldl_cons, ih (set.add element) (by rw [hadd]; simpa using hdistinct), hadd]
      simp
  exact hfold elements ∅ hnodup

/-! ## Items among others -/

section Among

variable {A : Type v} [DecidableEq A]

/-- The item is among others. -/
def isAmong (others : List A) (item : A) : Bool := item ∈ others

variable {others : List A} {item : A}

@[simp]
theorem isAmong_iff : isAmong others item ↔ item ∈ others := decide_eq_true_iff

/-- The items that are among others. -/
def keepAmong (others items : List A) : List A := items.filter fun item => item ∈ others

/-- The items that are not among others. -/
def dropAmong (others items : List A) : List A := items.filter fun item => item ∉ others

variable {items : List A}

@[simp]
theorem mem_keepAmong : item ∈ keepAmong others items ↔ item ∈ items ∧ item ∈ others := by
  rw [keepAmong, mem_filter, decide_eq_true_eq]

@[simp]
theorem mem_dropAmong : item ∈ dropAmong others items ↔ item ∈ items ∧ item ∉ others := by
  rw [dropAmong, mem_filter, decide_eq_true_eq]

end Among

/-! ## The first item under each key -/

section KeepFirst

variable {A : Type v} {K : Type u} [DecidableEq K]

/-- Keep the first item under each key, apart from the keys seen before. -/
def keepFirst (key : A → K) (seen : List K) : List A → List A
  | [] => []
  | item :: rest =>
    if key item ∈ seen then keepFirst key seen rest
    else item :: keepFirst key (key item :: seen) rest

variable {key : A → K} {seen : List K} {part whole : List A}

/-- Of the keys seen before only which there are matters. -/
theorem keepFirst_congr {other : List K} (hsame : ∀ found, found ∈ seen ↔ found ∈ other)
    (items : List A) : keepFirst key seen items = keepFirst key other items := by
  induction items generalizing seen other with
  | nil => rfl
  | cons item rest ih =>
    have hnext : ∀ found, found ∈ key item :: seen ↔ found ∈ key item :: other := fun found => by
      rw [mem_cons, mem_cons, hsame]
    simp only [keepFirst, hsame, ih hsame, ih hnext]

theorem keepFirst_sublist (key : A → K) (seen : List K) (items : List A) :
    (keepFirst key seen items).Sublist items := by
  induction items generalizing seen with
  | nil => exact List.Sublist.refl []
  | cons item rest ih =>
    unfold keepFirst
    split
    · exact (ih seen).cons item
    · exact (ih _).cons_cons item

/-- Every item is kept if no key repeats, and only then. -/
theorem keepFirst_eq_self_iff {items : List A} :
    keepFirst key seen items = items ↔ (items.map key).Nodup ∧ ∀ item ∈ items, key item ∉ seen := by
  induction items generalizing seen with
  | nil => simp [keepFirst]
  | cons item rest ih =>
    rw [map_cons, nodup_cons, forall_mem_cons, keepFirst]
    split
    · next hseen =>
      refine ⟨fun heq => ?_, fun h => absurd hseen h.2.1⟩
      have hlength := (keepFirst_sublist key seen rest).length_le
      rw [heq, length_cons] at hlength
      omega
    · next hseen =>
      rw [List.cons.injEq, ih]
      simp only [true_and, hseen, not_false_eq_true, mem_cons, not_or, mem_map,
        not_exists, not_and]
      constructor
      · rintro ⟨hnodup, hrest⟩
        exact ⟨⟨fun other hother => (hrest other hother).1, hnodup⟩,
          fun other hother => (hrest other hother).2⟩
      · rintro ⟨⟨hfirst, hnodup⟩, hrest⟩
        exact ⟨hnodup, fun other hother => ⟨hfirst other hother, hrest other hother⟩⟩

/-- No two kept items have the same key, and none has a key seen before. -/
theorem keepFirst_nodup (key : A → K) (seen : List K) (items : List A) :
    ((keepFirst key seen items).map key).Nodup ∧
      ∀ item ∈ keepFirst key seen items, key item ∉ seen := by
  induction items generalizing seen with
  | nil => simp [keepFirst]
  | cons item rest ih =>
    unfold keepFirst
    split
    · exact ih seen
    · next hnew =>
      obtain ⟨hnodup, hfresh⟩ := ih (key item :: seen)
      constructor
      · rw [map_cons, nodup_cons]
        refine ⟨fun hmem => ?_, hnodup⟩
        obtain ⟨other, hother, hkey⟩ := mem_map.mp hmem
        exact hfresh other hother (hkey ▸ mem_cons_self)
      · intro other hother
        obtain rfl | hother := mem_cons.mp hother
        · exact hnew
        · exact fun hseen => hfresh other hother (mem_cons_of_mem _ hseen)

/-- A part of a list that has as many items of every kind is the whole list. -/
theorem eq_of_sublist_of_countP (kind : A → K) (h : part.Sublist whole)
    (hcount : ∀ item ∈ whole, part.countP (kind · = kind item) = whole.countP (kind · = kind item))
    :
    part = whole := by
  induction h with
  | slnil => rfl
  | @cons part whole item hpart ih =>
    have hle := hpart.countP_le (p := fun other => kind other = kind item)
    have heq := hcount item mem_cons_self
    rw [countP_cons_of_pos (by simp)] at heq
    omega
  | @cons_cons part whole item hpart ih =>
    refine congrArg (item :: ·) (ih fun other hother => ?_)
    have heq := hcount other (mem_cons_of_mem _ hother)
    rw [countP_cons, countP_cons] at heq
    omega

/-- A part of a list with distinct keys, and the items under other keys, are the list. -/
theorem sublist_append_filter_perm (key : A → K) (hsublist : part.Sublist whole)
    (hdistinct : (whole.map key).Nodup) :
    (part ++ whole.filter (key · ∉ part.map key)).Perm whole := by
  induction hsublist with
  | slnil => exact List.Perm.refl _
  | @cons part whole item hpart ih =>
    obtain ⟨hfresh, hrest⟩ := nodup_cons.mp hdistinct
    have hother : key item ∉ part.map key := fun hmem => hfresh ((hpart.map key).subset hmem)
    rw [filter_cons_of_pos (by simpa using hother)]
    exact perm_middle.trans ((ih hrest).cons item)
  | @cons_cons part whole item hpart ih =>
    obtain ⟨hfresh, hrest⟩ := nodup_cons.mp hdistinct
    rw [filter_cons_of_neg (by simp), cons_append]
    have hsame : whole.filter (key · ∉ (item :: part).map key) =
        whole.filter (key · ∉ part.map key) := by
      refine filter_congr fun other hother => ?_
      have hne : key other ≠ key item := by
        intro heq
        exact hfresh (heq ▸ mem_map_of_mem hother)
      simp [hne]
    rw [hsame]
    exact (ih hrest).cons item

end KeepFirst

/-! ## The order of own keys -/

section OwnKeys

variable {K : Type u} {V : Type v} {W : Type w}

variable (index? : K → Option ℕ) (members : List (K × V))

/-- The order in which an object lists its own keys: the array indices first, by number. -/
def ownKeyOrder : List (K × V) :=
  ((members.filterMap fun member => (index? member.1).map fun index => (index, member)).mergeSort
    fun first second => decide (first.1 ≤ second.1)).map Prod.snd ++
    members.filter fun member => (index? member.1).isNone

theorem ownKeyOrder_perm : (ownKeyOrder index? members).Perm members := by
  have hindices : (members.filterMap fun member =>
      (index? member.1).map fun index => (index, member)).map Prod.snd =
        members.filter fun member => (index? member.1).isSome := by
    rw [map_filterMap, ← filterMap_eq_filter]
    refine filterMap_congr fun member _ => ?_
    cases hindex : index? member.1 <;> simp [hindex, Option.guard]
  have hsorted := (mergeSort_perm (members.filterMap fun member =>
    (index? member.1).map fun index => (index, member))
      fun first second => decide (first.1 ≤ second.1)).map Prod.snd
  rw [hindices] at hsorted
  refine (hsorted.append_right _).trans ?_
  have hothers : (members.filter fun member => (index? member.1).isNone) =
      members.filter fun member => !(index? member.1).isSome := by
    refine filter_congr fun member _ => ?_
    cases index? member.1 <;> rfl
  rw [hothers]
  exact filter_append_perm _ _

/-- The order depends on the keys alone. -/
theorem ownKeyOrder_map (f : K → V → W) (members : List (K × V)) :
    ownKeyOrder index? (members.map fun member => (member.1, f member.1 member.2)) =
      (ownKeyOrder index? members).map fun member => (member.1, f member.1 member.2) := by
  unfold ownKeyOrder
  rw [map_append, filter_map, filterMap_map, map_map]
  congr 1
  have hindices : (members.filterMap ((fun member : K × W =>
      (index? member.1).map fun index => (index, member)) ∘
        fun member => (member.1, f member.1 member.2))) =
      (members.filterMap fun member => (index? member.1).map fun index => (index, member)).map
        fun entry => (entry.1, (entry.2.1, f entry.2.1 entry.2.2)) := by
    rw [map_filterMap]
    refine filterMap_congr fun member _ => ?_
    simp only [Function.comp_apply, Option.map_map]
    rfl
  have hsorted := map_mergeSort (r := fun first second : ℕ × K × V => decide (first.1 ≤ second.1))
    (s := fun first second : ℕ × K × W => decide (first.1 ≤ second.1))
    (f := fun entry : ℕ × K × V => (entry.1, (entry.2.1, f entry.2.1 entry.2.2)))
    (l := members.filterMap fun member => (index? member.1).map fun index => (index, member))
    fun _ _ _ _ => rfl
  rw [hindices, ← hsorted, map_map]
  rfl

/-- May a key stand before another in the order of own keys? -/
def Precedes (first second : K) : Prop :=
  ∀ index ∈ index? second, ∃ before ∈ index? first, before ≤ index

theorem ownKeyOrder_pairwise :
    ((ownKeyOrder index? members).map Prod.fst).Pairwise (Precedes index?) := by
  rw [pairwise_map, ownKeyOrder, pairwise_append]
  have hindexed {member : ℕ × K × V} (hmember : member ∈ members.filterMap fun member =>
      (index? member.1).map fun index => (index, member)) : index? member.2.1 = some member.1 := by
    obtain ⟨other, -, hother⟩ := mem_filterMap.mp hmember
    obtain ⟨index, hindex, rfl⟩ := Option.map_eq_some_iff.mp hother
    exact hindex
  have hlast (first : K) {second : K × V}
      (hsecond : second ∈ members.filter fun member => (index? member.1).isNone) :
      Precedes index? first second.1 := by
    intro index hindex
    rw [Option.isNone_iff_eq_none.mp (mem_filter.mp hsecond).2] at hindex
    cases hindex
  refine ⟨?_, pairwise_of_forall_mem_list fun first _ second hsecond => hlast _ hsecond,
    fun first _ second hsecond => hlast _ hsecond⟩
  · rw [pairwise_map]
    have hsorted : ((members.filterMap fun member =>
        (index? member.1).map fun index => (index, member)).mergeSort
          fun first second => decide (first.1 ≤ second.1)).Pairwise
            fun first second => decide (first.1 ≤ second.1) :=
      pairwise_mergeSort (fun _ _ _ hfirst hsecond => decide_eq_true
          ((of_decide_eq_true hfirst).trans (of_decide_eq_true hsecond)))
        (fun first second => by simpa using Nat.le_total first.1 second.1) _
    refine hsorted.imp_of_mem fun hfirst hsecond hle index hindex => ?_
    rw [hindexed (mem_mergeSort.mp hsecond)] at hindex
    cases hindex
    exact ⟨_, hindexed (mem_mergeSort.mp hfirst), of_decide_eq_true hle⟩

/-- Members that stand in the order of own keys are listed as they stand. -/
theorem ownKeyOrder_eq_self {index? : K → Option ℕ} {members : List (K × V)}
    (hordered : (members.map Prod.fst).Pairwise (Precedes index?)) :
    ownKeyOrder index? members = members := by
  rw [pairwise_map] at hordered
  have hsorted : (members.filterMap fun member =>
      (index? member.1).map fun index => (index, member)).Pairwise
        fun first second => decide (first.1 ≤ second.1) := by
    rw [pairwise_filterMap]
    refine hordered.imp fun hbefore first hfirst second hsecond => ?_
    obtain ⟨index, hindex, rfl⟩ := Option.map_eq_some_iff.mp hfirst
    obtain ⟨other, hother, rfl⟩ := Option.map_eq_some_iff.mp hsecond
    obtain ⟨before, hbefore, hle⟩ := hbefore other hother
    rw [hindex] at hbefore
    cases hbefore
    exact decide_eq_true hle
  rw [ownKeyOrder, mergeSort_of_pairwise hsorted]
  clear hsorted
  induction members with
  | nil => rfl
  | cons member rest ih =>
    obtain ⟨hfirst, hrest⟩ := pairwise_cons.mp hordered
    cases hindex : index? member.1 with
    | some index =>
      rw [filterMap_cons_some (by rw [hindex]; rfl), map_cons,
        filter_cons_of_neg (by simp [hindex]), cons_append, ih hrest]
    | none =>
      -- after a key that is no array index there is no array index
      have hnone : ∀ other ∈ rest, index? other.1 = none := by
        intro other hother
        refine Option.eq_none_iff_forall_ne_some.mpr fun index hsome => ?_
        obtain ⟨before, hbefore, -⟩ := hfirst other hother index hsome
        rw [hindex] at hbefore
        cases hbefore
      have hindices : (rest.filterMap fun member =>
          (index? member.1).map fun index => (index, member)) = [] := by
        refine filterMap_eq_nil_iff.mpr fun other hother => ?_
        rw [hnone other hother]
        rfl
      rw [filterMap_cons_none (by rw [hindex]; rfl), hindices, map_nil, nil_append, filter_eq_self]
      intro other hother
      rcases mem_cons.mp hother with rfl | hother
      · rw [hindex]
        rfl
      · rw [hnone other hother]
        rfl

end OwnKeys

end Nobie.Foundation
