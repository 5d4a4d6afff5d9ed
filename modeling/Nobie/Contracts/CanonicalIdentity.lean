/-
# What canonical JSON identifies

The policy leaves values out bottom-up: `undefined`, `null`, blank strings, and the arrays
and objects that are empty then. What is left of two values is compared up to the order of
keys. The canonical text makes the same comparison, except that a member under the key
`__proto__` is never written, whatever its value is.
-/

import Nobie.Contracts.CanonicalJson
import Nobie.Foundation.JsValueReader

namespace Nobie.Contracts

open Foundation JsonValue List JsString

/-! ## The policy -/

def nonemptyArray (items : List JsonValue) : Option JsonValue :=
  if items.isEmpty then none else some (.array items)

def nonemptyObject (members : List (JsString × JsonValue)) : Option JsonValue :=
  if members.isEmpty then none else some (.object members)

mutual

/-- What the policy leaves of a value. -/
def prune : JsValue → Option JsonValue
  | .undefined | .null => none
  | .bool value => some (.bool value)
  | .number value => some (.number value)
  | .string value =>
    if ∀ unit ∈ value, isSpace unit then none else some (.string value)
  | .array items => nonemptyArray (pruneItems items)
  | .object members => nonemptyObject (pruneMembers members)

def pruneItems : List JsValue → List JsonValue
  | [] => []
  | item :: rest => (prune item).toList ++ pruneItems rest

def pruneMembers : List (JsString × JsValue) → List (JsString × JsonValue)
  | [] => []
  | (key, value) :: rest => ((prune value).map (key, ·)).toList ++ pruneMembers rest

end

/-- The values are equal once the policy's removals are made and the order of keys is
disregarded. -/
def PolicyEqual (first second : JsValue) : Prop :=
  Option.Rel SameUpToKeyOrder (prune first) (prune second)

mutual

/-- A value without its members under `__proto__`, and without what is empty then. -/
def withoutProto : JsonValue → Option JsonValue
  | .null => some .null
  | .bool value => some (.bool value)
  | .number value => some (.number value)
  | .string value => some (.string value)
  | .array items => nonemptyArray (itemsWithoutProto items)
  | .object members => nonemptyObject (membersWithoutProto members)

def itemsWithoutProto : List JsonValue → List JsonValue
  | [] => []
  | item :: rest => (withoutProto item).toList ++ itemsWithoutProto rest

def membersWithoutProto : List (JsString × JsonValue) → List (JsString × JsonValue)
  | [] => []
  | (key, value) :: rest =>
    (if key = protoKey then [] else ((withoutProto value).map (key, ·)).toList) ++
      membersWithoutProto rest

end

/-- What is left of a value by the policy and without members under `__proto__`. -/
def reduced (value : JsValue) : Option JsonValue := (prune value).bind withoutProto

/-- The values differ, but only in members under `__proto__`. -/
def DifferInProtoAlone (first second : JsValue) : Prop :=
  ¬ PolicyEqual first second ∧ Option.Rel SameUpToKeyOrder (reduced first) (reduced second)

/-! ## Lists of items and members -/

/-- The members that a function keeps, none of them under `__proto__`. -/
def dropProto {Value : Type} (keep : Value → Option JsonValue)
    (members : List (JsString × Value)) : List (JsString × JsonValue) :=
  members.filterMap fun member =>
    if member.1 = protoKey then none else (keep member.2).map (member.1, ·)

variable (items : List JsValue) {others : List JsonValue} {Value : Type}
  {result : List (JsString × JsonValue)}

theorem prune_array : prune (.array items) = nonemptyArray (items.filterMap prune) := by
  have hitems : pruneItems items = items.filterMap prune := by
    induction items with
    | nil => rfl
    | cons item rest ih => cases hitem : prune item <;> simp [pruneItems, ih, hitem]
  rw [prune, hitems]

variable (members : List (JsString × JsValue)) {key : JsString} {first second value : JsValue}

theorem prune_object :
    prune (.object members) =
      nonemptyObject (members.filterMap fun member => (prune member.2).map (member.1, ·)) := by
  have hmembers : pruneMembers members =
      members.filterMap fun member => (prune member.2).map (member.1, ·) := by
    induction members with
    | nil => rfl
    | cons member rest ih =>
      obtain ⟨key, value⟩ := member
      cases hvalue : prune value <;> simp [pruneMembers, ih, hvalue]
  rw [prune, hmembers]

theorem withoutProto_array (items : List JsonValue) :
    withoutProto (.array items) = nonemptyArray (items.filterMap withoutProto) := by
  have hitems : itemsWithoutProto items = items.filterMap withoutProto := by
    induction items with
    | nil => rfl
    | cons item rest ih => cases hitem : withoutProto item <;> simp [itemsWithoutProto, ih, hitem]
  rw [withoutProto, hitems]

theorem withoutProto_object (members : List (JsString × JsonValue)) :
    withoutProto (.object members) = nonemptyObject (dropProto withoutProto members) := by
  have hmembers : membersWithoutProto members = dropProto withoutProto members := by
    unfold dropProto
    induction members with
    | nil => rfl
    | cons member rest ih =>
      obtain ⟨key, value⟩ := member
      by_cases hkey : key = protoKey
      · simp [membersWithoutProto, ih, hkey]
      · cases hvalue : withoutProto value <;> simp [membersWithoutProto, ih, hvalue, hkey]
  rw [withoutProto, hmembers]

theorem reduced_array : reduced (.array items) = nonemptyArray (items.filterMap reduced) := by
  have hkept : (nonemptyArray (items.filterMap prune)).bind withoutProto =
      nonemptyArray ((items.filterMap prune).filterMap withoutProto) := by
    cases items.filterMap prune with
    | nil => rfl
    | cons item rest => exact withoutProto_array (item :: rest)
  rw [reduced, prune_array, hkept, filterMap_filterMap]
  rfl

theorem reduced_object :
    reduced (.object members) = nonemptyObject (dropProto reduced members) := by
  have hkept (kept : List (JsString × JsonValue)) : (nonemptyObject kept).bind withoutProto =
      nonemptyObject (dropProto withoutProto kept) := by
    cases kept with
    | nil => rfl
    | cons member rest => exact withoutProto_object (member :: rest)
  rw [reduced, prune_object, hkept]
  unfold dropProto
  rw [filterMap_filterMap]
  refine congrArg nonemptyObject (filterMap_congr fun member _ => ?_)
  unfold reduced
  cases prune member.2 with
  | none | some => simp

/-! ## Sameness of what is kept -/

theorem rel_nonemptyArray {items : List JsonValue}
    (hsame : SameUpToKeyOrder (.array items) (.array others)) :
    Option.Rel SameUpToKeyOrder (nonemptyArray items) (nonemptyArray others) := by
  cases hsame with
  | array hlength hitems =>
    cases items with
    | nil =>
      obtain rfl := length_eq_zero_iff.mp hlength.symm
      exact .none
    | cons item items =>
      cases others with
      | nil => cases hlength
      | cons other others => exact .some (.array hlength hitems)

theorem rel_nonemptyObject {members others : List (JsString × JsonValue)}
    (hsame : SameUpToKeyOrder (.object members) (.object others)) :
    Option.Rel SameUpToKeyOrder (nonemptyObject members) (nonemptyObject others) := by
  cases hsame with
  | object hdistinct hkeys hvalues =>
    cases members with
    | nil =>
      obtain rfl := map_eq_nil_iff.mp hkeys.symm.eq_nil
      exact .none
    | cons member members =>
      cases others with
      | nil => cases hkeys.eq_nil
      | cons other others => exact .some (.object hdistinct hkeys hvalues)

theorem sameUpToKeyOrder_cons {item other : JsonValue} {items : List JsonValue}
    (hitem : SameUpToKeyOrder item other) (hitems : SameUpToKeyOrder (.array items) (.array others))
    :
    SameUpToKeyOrder (.array (item :: items)) (.array (other :: others)) := by
  cases hitems with
  | array hlength hitems =>
    refine .array (congrArg (· + 1) hlength) fun index found listed hfound hlisted => ?_
    cases index with
    | zero =>
      cases hfound
      cases hlisted
      exact hitem
    | succ index => exact hitems index found listed hfound hlisted

/-- Items that are treated alike leave the same arrays. -/
theorem sameUpToKeyOrder_filterMap {Item Other : Type} {keep : Item → Option JsonValue}
    {keepOther : Other → Option JsonValue} {items : List Item} {others : List Other}
    (hlength : items.length = others.length)
    (hitems : ∀ (index : ℕ) item other, items[index]? = some item → others[index]? = some other →
      Option.Rel SameUpToKeyOrder (keep item) (keepOther other)) :
    SameUpToKeyOrder (.array (items.filterMap keep)) (.array (others.filterMap keepOther)) := by
  induction items generalizing others with
  | nil =>
    obtain rfl := length_eq_zero_iff.mp hlength.symm
    exact .array rfl nofun
  | cons item items ih =>
    cases others with
    | nil => cases hlength
    | cons other others =>
      have hrest := ih (Nat.succ.inj hlength) fun index found listed hfound hlisted =>
        hitems (index + 1) found listed hfound hlisted
      have hfirst := hitems 0 item other rfl rfl
      rw [filterMap_cons, filterMap_cons]
      cases hkeep : keep item with
      | none =>
        rw [hkeep] at hfirst
        cases hother : keepOther other with
        | none => exact hrest
        | some found =>
          rw [hother] at hfirst
          cases hfirst
      | some kept =>
        rw [hkeep] at hfirst
        cases hother : keepOther other with
        | none =>
          rw [hother] at hfirst
          cases hfirst
        | some found =>
          rw [hother] at hfirst
          cases hfirst with
          | some hsame => exact sameUpToKeyOrder_cons hsame hrest

section Members

variable {Value Other : Type} {keep : Value → Option JsonValue}
  {keepOther : Other → Option JsonValue}

theorem mem_dropProto {members : List (JsString × Value)} {kept : JsonValue} :
    (key, kept) ∈ dropProto keep members ↔
      key ≠ protoKey ∧ ∃ value, (key, value) ∈ members ∧ keep value = some kept := by
  unfold dropProto
  rw [mem_filterMap]
  constructor
  · rintro ⟨⟨found, value⟩, hmember, hkept⟩
    by_cases hkey : found = protoKey
    · rw [if_pos hkey] at hkept
      cases hkept
    · rw [if_neg hkey, Option.map_eq_some_iff] at hkept
      obtain ⟨_, hvalue, hpair⟩ := hkept
      cases hpair
      exact ⟨hkey, value, hmember, hvalue⟩
  · rintro ⟨hkey, value, hmember, hvalue⟩
    exact ⟨(key, value), hmember, by rw [if_neg hkey, hvalue]; rfl⟩

theorem mem_keys_dropProto {members : List (JsString × Value)} :
    key ∈ (dropProto keep members).map Prod.fst ↔
      key ≠ protoKey ∧ ∃ value, (key, value) ∈ members ∧ (keep value).isSome := by
  rw [mem_map]
  constructor
  · rintro ⟨⟨_, kept⟩, hmember, rfl⟩
    obtain ⟨hkey, value, hvalue, hkept⟩ := mem_dropProto.mp hmember
    exact ⟨hkey, value, hvalue, by rw [hkept]; rfl⟩
  · rintro ⟨hkey, value, hvalue, hsome⟩
    obtain ⟨kept, hkept⟩ := Option.isSome_iff_exists.mp hsome
    exact ⟨(key, kept), mem_dropProto.mpr ⟨hkey, value, hvalue, hkept⟩, rfl⟩

/-- The keys that are kept stand in the order of all keys. -/
theorem keys_dropProto_sublist (members : List (JsString × Value)) :
    ((dropProto keep members).map Prod.fst).Sublist (members.map Prod.fst) := by
  unfold dropProto
  induction members with
  | nil => exact List.Sublist.refl _
  | cons member rest ih =>
    rw [filterMap_cons]
    split
    next => exact ih.cons _
    next kept hkept =>
      have hkey : kept.1 = member.1 := by
        split at hkept
        · cases hkept
        · obtain ⟨_, -, rfl⟩ := Option.map_eq_some_iff.mp hkept
          rfl
      rw [map_cons, map_cons, hkey]
      exact ih.cons_cons _

/-- Members that are treated alike leave the same objects. -/
theorem sameUpToKeyOrder_dropProto {members : List (JsString × Value)}
    {others : List (JsString × Other)} (hdistinct : (members.map Prod.fst).Nodup)
    (hkeys : (members.map Prod.fst).Perm (others.map Prod.fst))
    (hvalues : ∀ key value other, (key, value) ∈ members → (key, other) ∈ others →
      Option.Rel SameUpToKeyOrder (keep value) (keepOther other)) :
    SameUpToKeyOrder (.object (dropProto keep members)) (.object (dropProto keepOther others)) := by
  have hothers : (others.map Prod.fst).Nodup := hkeys.nodup hdistinct
  have hkept : ((dropProto keep members).map Prod.fst).Nodup :=
    hdistinct.sublist (keys_dropProto_sublist members)
  have hlisted : ((dropProto keepOther others).map Prod.fst).Nodup :=
    hothers.sublist (keys_dropProto_sublist others)
  have hsome {key : JsString} {value : Value} {other : Other} (hvalue : (key, value) ∈ members)
      (hother : (key, other) ∈ others) : (keep value).isSome = (keepOther other).isSome := by
    have hrel := hvalues key value other hvalue hother
    generalize keep value = kept at hrel ⊢
    generalize keepOther other = listed at hrel ⊢
    cases hrel <;> rfl
  refine .object hkept ((perm_ext_iff_of_nodup hkept hlisted).mpr fun key => ?_) ?_
  · rw [mem_keys_dropProto, mem_keys_dropProto]
    refine and_congr_right fun _ => ⟨fun ⟨value, hvalue, hkeep⟩ => ?_, fun ⟨other, hother, hkeep⟩ => ?_⟩
    · obtain ⟨⟨_, other⟩, hother, rfl⟩ := mem_map.mp (hkeys.subset (mem_map_of_mem hvalue))
      exact ⟨other, hother, (hsome hvalue hother) ▸ hkeep⟩
    · obtain ⟨⟨_, value⟩, hvalue, rfl⟩ := mem_map.mp (hkeys.symm.subset (mem_map_of_mem hother))
      exact ⟨value, hvalue, (hsome hvalue hother).symm ▸ hkeep⟩
  · intro key kept listed hkeptMem hlistedMem
    obtain ⟨-, value, hvalue, hkeep⟩ := mem_dropProto.mp hkeptMem
    obtain ⟨-, other, hother, hkeepOther⟩ := mem_dropProto.mp hlistedMem
    have hrel := hvalues key value other hvalue hother
    rw [hkeep, hkeepOther] at hrel
    cases hrel with
    | some hsame => exact hsame

end Members

/-- Values that are the same stay so without their members under `__proto__`. -/
theorem rel_withoutProto {first second : JsonValue} (hsame : SameUpToKeyOrder first second) :
    Option.Rel SameUpToKeyOrder (withoutProto first) (withoutProto second) := by
  induction hsame with
  | null => exact .some .null
  | bool value => exact .some (.bool value)
  | number value => exact .some (.number value)
  | string value => exact .some (.string value)
  | array hlength _ ih =>
    rw [withoutProto_array, withoutProto_array]
    exact rel_nonemptyArray (sameUpToKeyOrder_filterMap hlength ih)
  | object hdistinct hkeys _ ih =>
    rw [withoutProto_object, withoutProto_object]
    exact rel_nonemptyObject (sameUpToKeyOrder_dropProto hdistinct hkeys ih)

theorem PolicyEqual.reduced (hequal : PolicyEqual first second) :
    Option.Rel SameUpToKeyOrder (reduced first) (reduced second) := by
  unfold Contracts.reduced
  unfold PolicyEqual at hequal
  revert hequal
  cases prune first <;> cases prune second <;> rintro (hsame | _)
  · exact .none
  · exact rel_withoutProto hsame

/-! ## What the canonical text writes -/

/-- The options that `toCanonicalJson` fills in. -/
def defaultOptions : CanonicalizeOptions where
  omitKeys := none
  dropNulls := some true
  dropEmptyStrings := some true
  dropEmptyArrays := some true

theorem canonicalize_array :
    canonicalizeValue defaultOptions (.array items) =
      nonemptyArray (items.filterMap (canonicalizeValue defaultOptions)) := by
  have hitems : (canonicalizeItems defaultOptions items).filterMap id =
      items.filterMap (canonicalizeValue defaultOptions) := by
    induction items with
    | nil => rfl
    | cons item rest ih =>
      rw [canonicalizeItems, filterMap_cons, filterMap_cons, ih]
      rfl
  rw [canonicalizeValue, hitems]
  simp [nonemptyArray, defaultOptions]

theorem canonicalizeMembers_eq :
    canonicalizeMembers defaultOptions members =
      members.map fun member => (member.1, canonicalizeValue defaultOptions member.2) := by
  induction members with
  | nil => rfl
  | cons member rest ih =>
    obtain ⟨key, value⟩ := member
    rw [canonicalizeMembers, ih, map_cons]

theorem insertEntry_append {entries : List (JsString × JsonValue)}
    (hfresh : key ∉ entries.map Prod.fst) (value : JsonValue) :
    OrderedMap.insertEntry entries key value = entries ++ [(key, value)] := by
  induction entries with
  | nil => rfl
  | cons entry rest ih =>
    obtain ⟨found, other⟩ := entry
    rw [map_cons, mem_cons, not_or] at hfresh
    rw [OrderedMap.insertEntry, if_neg (Ne.symm hfresh.1), ih hfresh.2, cons_append]

theorem dropProto_cons (keep : Value → Option JsonValue) (key : JsString) (value : Value)
    (rest : List (JsString × Value)) :
    dropProto keep ((key, value) :: rest) =
      (if key = protoKey then [] else ((keep value).map (key, ·)).toList) ++
        dropProto keep rest := by
  unfold dropProto
  by_cases hkey : key = protoKey
  · simp [hkey]
  · cases hvalue : keep value <;> simp [hkey, hvalue]

/-- A key that is not there yet is appended, unless it is `__proto__` or nothing is kept. -/
theorem canonicalizeKey_append (hfresh : key ∉ result.map Prod.fst) (next : Option JsonValue) :
    canonicalizeKey defaultOptions result (key, next) = result ++ dropProto id [(key, next)] := by
  have homit : ¬ ((defaultOptions.omitKeys.getD []).contains key) := by simp [defaultOptions]
  rw [canonicalizeKey, if_neg homit, dropProto_cons]
  cases next with
  | none => simp [dropProto]
  | some next =>
    by_cases hkey : key = protoKey
    · simp [assignMember, hkey, dropProto]
    · simp [assignMember, hkey, insertEntry_append hfresh, dropProto]

/-- The loop over distinct keys appends a member for every key that is kept. -/
theorem foldl_canonicalizeKey {members : List (JsString × Option JsonValue)}
    (hdistinct : (result.map Prod.fst ++ members.map Prod.fst).Nodup) :
    members.foldl (canonicalizeKey defaultOptions) result = result ++ dropProto id members := by
  induction members generalizing result with
  | nil => rw [foldl_nil, dropProto, filterMap_nil, append_nil]
  | cons member rest ih =>
    obtain ⟨key, next⟩ := member
    have hfresh : key ∉ result.map Prod.fst := fun hmem =>
      disjoint_of_nodup_append hdistinct hmem mem_cons_self
    have hkept : ((dropProto id [(key, next)]).map Prod.fst).Sublist [key] :=
      keys_dropProto_sublist [(key, next)]
    have hrest : ((result ++ dropProto id [(key, next)]).map Prod.fst ++
        rest.map Prod.fst).Nodup := by
      rw [map_append, append_assoc]
      exact hdistinct.sublist ((List.Sublist.refl _).append (hkept.append_right _))
    rw [foldl_cons, canonicalizeKey_append hfresh, ih hrest, append_assoc]
    congr 1
    rw [dropProto_cons, dropProto_cons, append_assoc]
    rfl

theorem sortKeys_perm (members : List (JsString × Value)) : (sortKeys members).Perm members :=
  mergeSort_perm _ _

theorem sortKeys_sorted {members : List (JsString × Value)}
    (hdistinct : (members.map Prod.fst).Nodup) :
    ((sortKeys members).map Prod.fst).Pairwise (· < ·) := by
  have hle : (sortKeys members).Pairwise fun first second => first.1 ≤ second.1 := by
    refine (pairwise_mergeSort ?_ ?_ members).imp fun h => of_decide_eq_true h
    · intro first second third hfirst hsecond
      exact decide_eq_true ((of_decide_eq_true hfirst).trans (of_decide_eq_true hsecond))
    · intro first second
      rw [Bool.or_eq_true, decide_eq_true_iff, decide_eq_true_iff]
      exact le_total first.1 second.1
  have hne : ((sortKeys members).map Prod.fst).Nodup :=
    ((sortKeys_perm members).map _).symm.nodup hdistinct
  exact ((pairwise_map.mpr hle).and hne).imp fun h => lt_of_le_of_ne h.1 h.2

/-- The members of a canonical object, in the order of their keys. -/
theorem canonicalize_object {members : List (JsString × JsValue)}
    (hdistinct : (members.map Prod.fst).Nodup) :
    canonicalizeValue defaultOptions (.object members) = nonemptyObject (dropProto id (sortKeys
        (members.map fun member => (member.1, canonicalizeValue defaultOptions member.2)))) := by
  have hkeys : ((sortKeys (members.map fun member =>
      (member.1, canonicalizeValue defaultOptions member.2))).map Prod.fst).Nodup := by
    refine ((sortKeys_perm _).map _).symm.nodup ?_
    rw [map_map]
    exact hdistinct
  rw [canonicalizeValue, canonicalizeMembers_eq, foldl_canonicalizeKey (by exact hkeys), nil_append]
  rfl

theorem canonicalize_keySorted (hproper : value.proper) {canonical : JsonValue}
    (hcanonical : canonicalizeValue defaultOptions value = some canonical) :
    KeySorted canonical := by
  induction value using JsValue.inductionOn generalizing canonical with
  | undefined | null => cases hcanonical
  | bool value =>
    cases hcanonical
    exact .bool value
  | number value =>
    cases hcanonical
    exact .number value
  | string value =>
    rw [canonicalizeValue] at hcanonical
    split at hcanonical
    · cases hcanonical
    · cases hcanonical
      exact .string value
  | array items ih =>
    rw [canonicalize_array] at hcanonical
    unfold nonemptyArray at hcanonical
    split at hcanonical
    · cases hcanonical
    · cases hcanonical
      refine .array fun found hfound => ?_
      obtain ⟨item, hitem, hkept⟩ := mem_filterMap.mp hfound
      exact ih item hitem (JsValue.proper_array.mp hproper item hitem) hkept
  | object members ih =>
    obtain ⟨hdistinct, hmembers⟩ := JsValue.proper_object.mp hproper
    rw [canonicalize_object hdistinct] at hcanonical
    unfold nonemptyObject at hcanonical
    split at hcanonical
    · cases hcanonical
    · cases hcanonical
      refine .object ?_ ?_
      · refine (sortKeys_sorted ?_).sublist (keys_dropProto_sublist _)
        rw [map_map]
        exact hdistinct
      · rintro ⟨key, kept⟩ hkept
        obtain ⟨-, _, hsorted, hsome⟩ := mem_dropProto.mp hkept
        obtain ⟨member, hmember, hpair⟩ := mem_map.mp ((sortKeys_perm _).subset hsorted)
        cases hpair
        exact ih member hmember (hmembers member hmember) hsome

/-- The canonical value is what the policy leaves without `__proto__`, up to the order of
keys. -/
theorem canonicalize_rel (hproper : value.proper) :
    Option.Rel SameUpToKeyOrder (canonicalizeValue defaultOptions value) (reduced value) := by
  induction value using JsValue.inductionOn with
  | undefined | null => exact .none
  | bool value => exact .some (.bool value)
  | number value => exact .some (.number value)
  | string value =>
    by_cases hblank : ∀ unit ∈ value, isSpace unit
    · have hcanonical : canonicalizeValue defaultOptions (.string value) = none :=
        if_pos ⟨rfl, trim_eq_nil.mpr hblank⟩
      rw [hcanonical, reduced, prune, if_pos hblank]
      exact .none
    · have hcanonical : canonicalizeValue defaultOptions (.string value) = some (.string value) :=
        if_neg fun h => hblank (trim_eq_nil.mp h.2)
      rw [hcanonical, reduced, prune, if_neg hblank]
      exact .some (.string value)
  | array items ih =>
    rw [canonicalize_array, reduced_array]
    refine rel_nonemptyArray (sameUpToKeyOrder_filterMap rfl fun index item other hitem hother => ?_)
    cases hitem.symm.trans hother
    have hmem := mem_of_getElem? hitem
    exact ih item hmem (JsValue.proper_array.mp hproper item hmem)
  | object members ih =>
    obtain ⟨hdistinct, hmembers⟩ := JsValue.proper_object.mp hproper
    rw [canonicalize_object hdistinct, reduced_object]
    have hperm := (sortKeys_perm (members.map fun member =>
      (member.1, canonicalizeValue defaultOptions member.2))).map Prod.fst
    rw [map_map] at hperm
    refine rel_nonemptyObject (sameUpToKeyOrder_dropProto (hperm.symm.nodup hdistinct) hperm ?_)
    intro key next value hnext hvalue
    obtain ⟨⟨_, found⟩, hfound, hpair⟩ := mem_map.mp ((sortKeys_perm _).subset hnext)
    cases hpair
    obtain rfl : found = value := (Prod.mk.inj (inj_on_of_nodup_map hdistinct hfound hvalue rfl)).2
    exact ih _ hfound (hmembers _ hfound)

theorem rel_symm {first second : Option JsonValue}
    (hrel : Option.Rel SameUpToKeyOrder first second) :
    Option.Rel SameUpToKeyOrder second first := by
  cases hrel with
  | some hsame => exact .some hsame.symm
  | none => exact .none

theorem rel_trans {first second third : Option JsonValue}
    (hfirst : Option.Rel SameUpToKeyOrder first second)
    (hsecond : Option.Rel SameUpToKeyOrder second third) :
    Option.Rel SameUpToKeyOrder first third := by
  cases hfirst with
  | none => exact hsecond
  | some hsame =>
    cases hsecond with
    | some hother => exact .some (hsame.trans hother)

theorem canonicalize_ne_null (value : JsValue) :
    canonicalizeValue defaultOptions value ≠ some .null := by
  intro hnull
  cases value with
  | undefined | null | bool | number => cases hnull
  | string | object =>
    rw [canonicalizeValue] at hnull
    split at hnull <;> cases hnull
  | array items =>
    rw [canonicalize_array, nonemptyArray] at hnull
    split at hnull <;> cases hnull

/-- The canonical texts of two values are equal exactly if the values are the same, up to
the order of keys, once the policy's removals are made and `__proto__` is left out. -/
theorem toCanonicalJson_eq_iff (hfirst : first.proper) (hsecond : second.proper) :
    toCanonicalJson first = toCanonicalJson second ↔
      Option.Rel SameUpToKeyOrder (reduced first) (reduced second) := by
  have htext (value : JsValue) : toCanonicalJson value =
      ((canonicalizeValue defaultOptions value).getD .null).stringify := rfl
  have hfirstRel := canonicalize_rel hfirst
  have hsecondRel := canonicalize_rel hsecond
  have hsorted {value : JsValue} (hproper : value.proper) :
      KeySorted ((canonicalizeValue defaultOptions value).getD .null) := by
    cases hcanonical : canonicalizeValue defaultOptions value with
    | none => exact .null
    | some canonical => exact canonicalize_keySorted hproper hcanonical
  rw [htext, htext]
  constructor
  · intro hsame
    have hvalues := eq_of_stringify_eq (hsorted hfirst) (hsorted hsecond) hsame
    have hcanonical : canonicalizeValue defaultOptions first =
        canonicalizeValue defaultOptions second := by
      have hfirstNull := canonicalize_ne_null first
      have hsecondNull := canonicalize_ne_null second
      generalize canonicalizeValue defaultOptions first = found at hvalues hfirstNull ⊢
      generalize canonicalizeValue defaultOptions second = other at hvalues hsecondNull ⊢
      cases found <;> cases other
      · rfl
      · exact absurd (congrArg some hvalues.symm) hsecondNull
      · exact absurd (congrArg some hvalues) hfirstNull
      · exact congrArg some hvalues
    rw [hcanonical] at hfirstRel
    exact rel_trans (rel_symm hfirstRel) hsecondRel
  · intro hrel
    have hcanonical := rel_trans (rel_trans hfirstRel hrel) (rel_symm hsecondRel)
    have hfirstSorted := hsorted hfirst
    have hsecondSorted := hsorted hsecond
    generalize canonicalizeValue defaultOptions first = found at hcanonical hfirstSorted ⊢
    generalize canonicalizeValue defaultOptions second = other at hcanonical hsecondSorted ⊢
    cases hcanonical with
    | none => rfl
    | some hsame => exact congrArg stringify (hsame.eq_of_keySorted hfirstSorted hsecondSorted)

/-- The text compares as the policy does, unless the values differ in `__proto__` alone. -/
theorem toCanonicalJson_policy (hfirst : first.proper) (hsecond : second.proper) :
    (toCanonicalJson first = toCanonicalJson second ↔ PolicyEqual first second) ↔
      ¬ DifferInProtoAlone first second := by
  rw [toCanonicalJson_eq_iff hfirst hsecond]
  constructor
  · rintro hpolicy ⟨hdiffer, hreduced⟩
    exact hdiffer (hpolicy.mp hreduced)
  · intro hapart
    refine ⟨fun hreduced => ?_, PolicyEqual.reduced⟩
    by_contra hdiffer
    exact hapart ⟨hdiffer, hreduced⟩

/-! ## Keys -/

/-- The digests of two texts tell the texts apart. -/
def NoCollision (sha256 : List UInt8 → String) (first second : List UInt8) : Prop :=
  sha256 first = sha256 second → first = second

theorem stableContractHash_eq_iff {sha256 : List UInt8 → String} {kind : String}
    (hcollision : NoCollision sha256 (contractBytes first kind) (contractBytes second kind)) :
    stableContractHash sha256 first kind = stableContractHash sha256 second kind ↔
      toCanonicalJson first = toCanonicalJson second := by
  constructor
  · intro hsame
    have hdigest := hcollision (String.append_right_inj _ |>.mp hsame)
    exact String.append_right_inj _ |>.mp (utf8Bytes_injective hdigest)
  · intro hsame
    unfold stableContractHash contractBytes
    rw [hsame]

/-- No object of the value has a member under `__proto__`. -/
inductive ProtoFree : JsValue → Prop
  | undefined : ProtoFree .undefined
  | null : ProtoFree .null
  | bool (value : Bool) : ProtoFree (.bool value)
  | number (value : Number) : ProtoFree (.number value)
  | string (value : JsString) : ProtoFree (.string value)
  | array {items : List JsValue} (hitems : ∀ item ∈ items, ProtoFree item) :
      ProtoFree (.array items)
  | object {members : List (JsString × JsValue)}
      (hkeys : ∀ member ∈ members, member.1 ≠ protoKey)
      (hmembers : ∀ member ∈ members, ProtoFree member.2) : ProtoFree (.object members)

/-- Where there is no member under `__proto__`, leaving it out changes nothing. -/
theorem reduced_eq_prune (hfree : ProtoFree value) : reduced value = prune value := by
  induction value using JsValue.inductionOn with
  | undefined | null | bool | number => rfl
  | string value =>
    rw [reduced, prune]
    split <;> rfl
  | array items ih =>
    cases hfree with
    | array hitems =>
      rw [reduced_array, prune_array,
        filterMap_congr fun item hitem => ih item hitem (hitems item hitem)]
  | object members ih =>
    cases hfree with
    | object hkeys hmembers =>
      rw [reduced_object, prune_object, dropProto]
      refine congrArg nonemptyObject (filterMap_congr fun member hmember => ?_)
      rw [if_neg (hkeys member hmember), ih member hmember (hmembers member hmember)]

theorem not_differInProtoAlone (hfirst : ProtoFree first) (hsecond : ProtoFree second) :
    ¬ DifferInProtoAlone first second := by
  rintro ⟨hdiffer, hreduced⟩
  rw [reduced_eq_prune hfirst, reduced_eq_prune hsecond] at hreduced
  exact hdiffer hreduced

/-! ## Projections -/

theorem proper_objectOf {members : List (String × JsValue)}
    (hkeys : (members.map fun member => ofString member.1).Nodup)
    (hvalues : members.Forall fun member => member.2.proper) :
    (objectOf members).proper := by
  refine JsValue.proper_object.mpr ⟨?_, fun member hmember => ?_⟩
  · rw [map_map]
    exact hkeys
  · obtain ⟨source, hsource, rfl⟩ := mem_map.mp hmember
    exact forall_iff_forall_mem.mp hvalues source hsource

theorem protoFree_objectOf {members : List (String × JsValue)}
    (hkeys : members.Forall fun member => ofString member.1 ≠ protoKey)
    (hvalues : members.Forall fun member => ProtoFree member.2) : ProtoFree (objectOf members) := by
  refine .object (fun member hmember => ?_) fun member hmember => ?_
  · obtain ⟨source, hsource, rfl⟩ := mem_map.mp hmember
    exact forall_iff_forall_mem.mp hkeys source hsource
  · obtain ⟨source, hsource, rfl⟩ := mem_map.mp hmember
    exact forall_iff_forall_mem.mp hvalues source hsource

theorem proper_optional {toValue : Value → JsValue} (hproper : ∀ value, (toValue value).proper)
    (value : Option Value) : (optional toValue value).proper := by
  cases value with
  | none => rfl
  | some value => exact hproper value

theorem protoFree_optional (value : Option JsString) : ProtoFree (optional .string value) := by
  cases value with
  | none => exact .undefined
  | some value => exact .string value

theorem proper_optionalText (value : Option JsString) : (optional .string value).proper :=
  proper_optional (fun _ => rfl) value

theorem proper_optionalObject (value : Option PlainObject) :
    (optional (.object ·.members) value).proper :=
  proper_optional (fun object => object.proper) value

theorem toolTargetProjection_proper (target : ToolTargetContract) :
    (buildToolTargetProjection target).proper := by
  refine proper_objectOf (by simp only [map_cons, map_nil]; decide) ?_
  exact ⟨rfl, rfl, proper_optionalText _, proper_optionalObject _⟩

theorem deliveryProjection_proper (delivery : DeliveryContract) :
    (buildDeliveryProjection delivery).proper := by
  refine proper_objectOf (by simp only [map_cons, map_nil]; decide) ?_
  refine ⟨rfl, rfl, rfl, proper_optionalText _, proper_optionalText _, proper_optionalText _, ?_⟩
  cases delivery.explicitResend with
  | none => rfl
  | some resend => cases resend <;> rfl

theorem impossibility_proper (impossibility : Impossibility) : impossibility.toValue.proper := by
  refine proper_objectOf (by simp only [map_cons, map_nil]; decide) ?_
  exact ⟨rfl, rfl⟩

theorem taskProjection_proper (task : IntentContract) : (taskProjection task).proper := by
  refine proper_objectOf (by simp only [map_cons, map_nil]; decide) ?_
  refine ⟨rfl, rfl, rfl, toolTargetProjection_proper _, deliveryProjection_proper _, ?_, rfl,
    proper_optional impossibility_proper _⟩
  refine JsValue.proper_array.mpr fun item hitem => ?_
  obtain ⟨text, -, rfl⟩ := mem_map.mp hitem
  rfl

theorem payloadProjection_proper (payload : SchedulePayloadContract) :
    (buildSchedulePayloadProjection payload).proper := by
  refine proper_objectOf (by simp only [map_cons, map_nil]; decide) ?_
  exact ⟨rfl, proper_optionalText _, proper_optionalText _, proper_optionalObject _,
    proper_optional taskProjection_proper _, proper_optionalText _⟩

theorem scheduleProjection_proper (contract : ScheduleContract) :
    (buildScheduleIdentityProjection contract).proper := by
  refine proper_objectOf (by simp only [map_cons, map_nil]; decide) ?_
  refine ⟨rfl, rfl, ?_, payloadProjection_proper _, ?_⟩
  · refine proper_objectOf (by simp only [map_cons, map_nil]; decide) ?_
    exact ⟨proper_optionalText _, proper_optionalText _, rfl, rfl⟩
  · refine proper_objectOf (by simp only [map_cons, map_nil]; decide) ?_
    exact ⟨rfl, proper_optionalText _, proper_optionalText _⟩

theorem dedupeProjection_proper (params : DeliveryDedupeParams) :
    (deliveryDedupeProjection params).proper := by
  refine proper_objectOf (by simp only [map_cons, map_nil]; decide) ?_
  exact ⟨rfl, rfl, deliveryProjection_proper _, rfl⟩

/-- A delivery holds texts only. -/
theorem deliveryProjection_protoFree (delivery : DeliveryContract) :
    ProtoFree (buildDeliveryProjection delivery) := by
  refine protoFree_objectOf (by simp only [List.Forall]; decide) ?_
  refine ⟨.number _, .string _, .string _, protoFree_optional _, protoFree_optional _,
    protoFree_optional _, ?_⟩
  split
  · exact .bool true
  · exact .undefined

theorem dedupeProjection_protoFree (params : DeliveryDedupeParams) :
    ProtoFree (deliveryDedupeProjection params) := by
  refine protoFree_objectOf (by simp only [List.Forall]; decide) ?_
  exact ⟨.string _, .string _, deliveryProjection_protoFree _, .string _⟩

/-- Canonical JSON identifies exactly what the policy does, unless two values differ in
`__proto__` members alone; so do the keys of payloads and schedules. Deliveries have no
such members. -/
theorem canonicalJson_identifies_iff (sha256 : List UInt8 → String) :
    (∀ first second : PlainValue,
      (toCanonicalJson first.value = toCanonicalJson second.value ↔
          PolicyEqual first.value second.value) ↔
        ¬ DifferInProtoAlone first.value second.value) ∧
    (∀ first second : SchedulePayloadContract,
      NoCollision sha256 (contractBytes (buildSchedulePayloadProjection first) "payload")
          (contractBytes (buildSchedulePayloadProjection second) "payload") →
        ((buildPayloadHash sha256 first = buildPayloadHash sha256 second ↔
            PolicyEqual (buildSchedulePayloadProjection first)
              (buildSchedulePayloadProjection second)) ↔
          ¬ DifferInProtoAlone (buildSchedulePayloadProjection first)
            (buildSchedulePayloadProjection second))) ∧
    (∀ first second : ScheduleContract,
      NoCollision sha256 (contractBytes (buildScheduleIdentityProjection first) "schedule")
          (contractBytes (buildScheduleIdentityProjection second) "schedule") →
        ((buildScheduleIdentityKey sha256 first = buildScheduleIdentityKey sha256 second ↔
            PolicyEqual (buildScheduleIdentityProjection first)
              (buildScheduleIdentityProjection second)) ↔
          ¬ DifferInProtoAlone (buildScheduleIdentityProjection first)
            (buildScheduleIdentityProjection second))) ∧
    (∀ first second : DeliveryContract,
      NoCollision sha256 (contractBytes (buildDeliveryProjection first) "delivery")
          (contractBytes (buildDeliveryProjection second) "delivery") →
        (buildDeliveryKey sha256 first = buildDeliveryKey sha256 second ↔
          PolicyEqual (buildDeliveryProjection first) (buildDeliveryProjection second))) ∧
    (∀ first second : DeliveryDedupeParams,
      NoCollision sha256 (contractBytes (deliveryDedupeProjection first) "delivery-dedupe")
          (contractBytes (deliveryDedupeProjection second) "delivery-dedupe") →
        (buildDeliveryDedupeKey sha256 first = buildDeliveryDedupeKey sha256 second ↔
          PolicyEqual (deliveryDedupeProjection first) (deliveryDedupeProjection second))) := by
  refine ⟨?_, ?_, ?_, ?_, ?_⟩
  · intro first second
    exact toCanonicalJson_policy first.proper second.proper
  · intro first second hcollision
    unfold buildPayloadHash
    rw [stableContractHash_eq_iff hcollision]
    exact toCanonicalJson_policy (payloadProjection_proper first) (payloadProjection_proper second)
  · intro first second hcollision
    unfold buildScheduleIdentityKey
    rw [stableContractHash_eq_iff hcollision]
    exact toCanonicalJson_policy (scheduleProjection_proper first) (scheduleProjection_proper second)
  · intro first second hcollision
    unfold buildDeliveryKey
    rw [stableContractHash_eq_iff hcollision]
    exact (toCanonicalJson_policy (deliveryProjection_proper first)
      (deliveryProjection_proper second)).mpr (not_differInProtoAlone
        (deliveryProjection_protoFree first) (deliveryProjection_protoFree second))
  · intro first second hcollision
    unfold buildDeliveryDedupeKey
    rw [stableContractHash_eq_iff hcollision]
    exact (toCanonicalJson_policy (dedupeProjection_proper first)
      (dedupeProjection_proper second)).mpr (not_differInProtoAlone
        (dedupeProjection_protoFree first) (dedupeProjection_protoFree second))

/-! ## A member that is not written -/

/-- A member under `__proto__` at the end of an object is lost. -/
theorem reduced_append_proto (value : JsValue) :
    reduced (.object (members ++ [(protoKey, value)])) = reduced (.object members) := by
  have hlast : dropProto reduced [(protoKey, value)] = [] := by
    rw [dropProto_cons, if_pos rfl]
    rfl
  have happend : dropProto reduced (members ++ [(protoKey, value)]) =
      dropProto reduced members ++ dropProto reduced [(protoKey, value)] :=
    filterMap_append
  rw [reduced_object, reduced_object, happend, hlast, append_nil]

/-- What the policy leaves of the value under it makes a difference to the policy. -/
theorem not_policyEqual_append_proto (hkept : (prune value).isSome) :
    ¬ PolicyEqual (.object (members ++ [(protoKey, value)])) (.object members) := by
  obtain ⟨kept, hkept⟩ := Option.isSome_iff_exists.mp hkept
  intro hequal
  unfold PolicyEqual at hequal
  rw [prune_object, prune_object, filterMap_append,
    filterMap_cons_some (by rw [hkept]; rfl), filterMap_nil] at hequal
  generalize members.filterMap (fun member => (prune member.2).map (member.1, ·)) = others at hequal
  cases others with
  | nil => cases hequal
  | cons member rest =>
    cases hequal with
    | some hsame =>
      cases hsame with
      | object _ hkeys _ => simpa using hkeys.length_eq

def pathValue : JsValue := .object [(ofString "path", textValue "notes")]

/-- The same object with a member under `__proto__`. -/
def pathWithProto : JsValue :=
  .object ([(ofString "path", textValue "notes")] ++
    [(protoKey, objectOf [("append", .bool true)])])

theorem protoMember_dropped :
    toCanonicalJson pathWithProto = toCanonicalJson pathValue ∧
      ¬ PolicyEqual pathWithProto pathValue := by
  have hproper : pathValue.proper := by decide
  refine ⟨?_, not_policyEqual_append_proto _ rfl⟩
  have hsame : reduced pathWithProto = reduced pathValue := reduced_append_proto _ _
  rw [toCanonicalJson_eq_iff (by decide) hproper, hsame]
  exact rel_trans (rel_symm (canonicalize_rel hproper)) (canonicalize_rel hproper)

/-! ## What a canonical text reads back as

The value itself, its undefined members disregarded, exactly if nothing in it had to be left out
at any depth. -/

/-- The value is the JSON value when its undefined members are disregarded. The order of
keys does not count. -/
inductive EqualToRead : JsValue → JsonValue → Prop
  | null : EqualToRead .null .null
  | bool (value : Bool) : EqualToRead (.bool value) (.bool value)
  | number (value : Number) : EqualToRead (.number value) (.number value)
  | string (value : JsString) : EqualToRead (.string value) (.string value)
  | array {items : List JsValue} {others : List JsonValue} (hlength : items.length = others.length)
      (hitems : ∀ (index : ℕ) item other, items[index]? = some item →
        others[index]? = some other → EqualToRead item other) :
      EqualToRead (.array items) (.array others)
  | object {members : List (JsString × JsValue)} {others : List (JsString × JsonValue)}
      (hdistinct : (others.map Prod.fst).Nodup)
      (hkeys : ∀ key, key ∈ others.map Prod.fst ↔
        ∃ value, (key, value) ∈ members ∧ value ≠ .undefined)
      (hvalues : ∀ key value other, (key, value) ∈ members → (key, other) ∈ others →
        EqualToRead value other) :
      EqualToRead (.object members) (.object others)

/-- The policy leaves nothing in the value out. -/
inductive NothingLeftOut : JsValue → Prop
  | bool (value : Bool) : NothingLeftOut (.bool value)
  | number (value : Number) : NothingLeftOut (.number value)
  | string {value : JsString} (hblank : trim value ≠ []) : NothingLeftOut (.string value)
  | array {items : List JsValue} (hne : items ≠ []) (hitems : ∀ item ∈ items, NothingLeftOut item) :
      NothingLeftOut (.array items)
  | object {members : List (JsString × JsValue)} (hne : ∃ member ∈ members, member.2 ≠ .undefined)
      (hkeys : ∀ member ∈ members, member.2 ≠ .undefined → member.1 ≠ protoKey)
      (hmembers : ∀ member ∈ members, member.2 ≠ .undefined → NothingLeftOut member.2) :
      NothingLeftOut (.object members)

/-! ## Reading back -/

variable {value : JsValue}

/-- A canonical text is read as what the policy leaves of the value. -/
theorem parse_toCanonicalJson (hproper : value.proper) :
    ∃ read, parse (toCanonicalJson value) = some read ∧
      SameUpToKeyOrder read ((reduced value).getD .null) := by
  have hrel := canonicalize_rel hproper
  have hsorted : KeySorted ((canonicalizeValue defaultOptions value).getD .null) := by
    cases hcanonical : canonicalizeValue defaultOptions value with
    | none => exact .null
    | some canonical => exact canonicalize_keySorted hproper hcanonical
  obtain ⟨read, hread, hsame⟩ := parse_stringify hsorted.proper
  refine ⟨read, hread, hsame.trans ?_⟩
  generalize canonicalizeValue defaultOptions value = canonical at hrel ⊢
  generalize reduced value = kept at hrel ⊢
  cases hrel with
  | none => exact .null
  | some hsame => exact hsame

variable {read : JsonValue} {Item : Type}

theorem EqualToRead.trans {other : JsonValue} (hequal : EqualToRead value read)
    (hsame : SameUpToKeyOrder read other) : EqualToRead value other := by
  induction hequal generalizing other with
  | null => cases hsame with | null => exact .null
  | bool value => cases hsame with | bool => exact .bool value
  | number value => cases hsame with | number => exact .number value
  | string value => cases hsame with | string => exact .string value
  | @array items others hlength _ ih =>
    cases hsame with
    | @array _ last hlast hitems =>
      refine .array (hlength.trans hlast) fun index item other hitem hother => ?_
      obtain ⟨hindex, -⟩ := List.getElem?_eq_some_iff.mp hitem
      have hbetween : others[index]? = some others[index] := getElem?_eq_getElem (hlength ▸ hindex)
      exact ih index item _ hitem hbetween (hitems index _ other hbetween hother)
  | @object members others hdistinct hkeys _ ih =>
    cases hsame with
    | @object _ last _ hperm hvalues =>
      refine .object (hperm.nodup hdistinct) (fun key => hperm.mem_iff.symm.trans (hkeys key))
        fun key value other hvalue hother => ?_
      have hkey : key ∈ others.map Prod.fst := hperm.symm.subset (mem_map_of_mem hother)
      obtain ⟨⟨_, between⟩, hbetween, rfl⟩ := mem_map.mp hkey
      exact ih _ value between hvalue hbetween (hvalues _ between other hbetween hother)

/-! ## What is left of a value in which nothing is left out -/

theorem reduced_string {value : JsString} (hblank : trim value ≠ []) :
    reduced (.string value) = some (.string value) := by
  have hunits : ¬ ∀ unit ∈ value, isSpace unit :=
    fun hunits => hblank (trim_eq_nil.mpr hunits)
  rw [reduced, prune, if_neg hunits]
  rfl

variable {keep : Item → Option JsonValue} {items : List Item}

/-- Items none of which is left out stand where they stood. -/
theorem filterMap_eq_of_forall {Same : Item → JsonValue → Prop}
    (hkept : ∀ item ∈ items, ∃ kept, keep item = some kept ∧ Same item kept) :
    List.Forall₂ Same items (items.filterMap keep) := by
  induction items with
  | nil => exact .nil
  | cons item items ih =>
    obtain ⟨kept, hitem, hsame⟩ := hkept item mem_cons_self
    rw [filterMap_cons, hitem]
    exact .cons hsame (ih fun other hother => hkept other (mem_cons_of_mem _ hother))

theorem EqualToRead.of_forall₂ {items : List JsValue} {others : List JsonValue}
    (hsame : List.Forall₂ EqualToRead items others) :
    EqualToRead (.array items) (.array others) := by
  refine .array hsame.length_eq fun index item other hitem hother => ?_
  obtain ⟨hindex, rfl⟩ := List.getElem?_eq_some_iff.mp hitem
  obtain ⟨hindex', rfl⟩ := List.getElem?_eq_some_iff.mp hother
  exact hsame.get hindex hindex'

theorem NothingLeftOut.equalToRead (hwhole : NothingLeftOut value) (hproper : value.proper) :
    ∃ kept, reduced value = some kept ∧ EqualToRead value kept := by
  induction hwhole with
  | bool value => exact ⟨.bool value, rfl, .bool value⟩
  | number value => exact ⟨.number value, rfl, .number value⟩
  | @string value hblank => exact ⟨.string value, reduced_string hblank, .string value⟩
  | @array items hne _ ih =>
    have hproper := JsValue.proper_array.mp hproper
    have hsame := filterMap_eq_of_forall fun item hitem => ih item hitem (hproper item hitem)
    have hkept : (items.filterMap reduced).isEmpty = false := by
      rw [isEmpty_eq_false_iff, ← length_pos_iff, ← hsame.length_eq]
      exact length_pos_iff.mpr hne
    exact ⟨.array (items.filterMap reduced), by rw [reduced_array, nonemptyArray, hkept]; rfl,
      .of_forall₂ hsame⟩
  | @object members hne hkeys _ ih =>
    obtain ⟨hdistinct, hproper⟩ := JsValue.proper_object.mp hproper
    have hkept {key : JsString} {value : JsValue} (hmember : (key, value) ∈ members)
        (hdefined : value ≠ .undefined) :
        ∃ kept, (key, kept) ∈ dropProto reduced members ∧ EqualToRead value kept := by
      obtain ⟨kept, hvalue, hequal⟩ := ih (key, value) hmember hdefined (hproper _ hmember)
      exact ⟨kept, mem_dropProto.mpr ⟨hkeys _ hmember hdefined, value, hmember, hvalue⟩, hequal⟩
    have hnonempty : (dropProto reduced members).isEmpty = false := by
      obtain ⟨⟨key, value⟩, hmember, hdefined⟩ := hne
      obtain ⟨kept, hmem, -⟩ := hkept hmember hdefined
      exact isEmpty_eq_false_iff.mpr (ne_nil_of_mem hmem)
    refine ⟨.object (dropProto reduced members),
      by rw [reduced_object, nonemptyObject, hnonempty]; rfl, ?_⟩
    have hkeptDistinct : ((dropProto reduced members).map Prod.fst).Nodup :=
      (keys_dropProto_sublist members).nodup hdistinct
    refine .object hkeptDistinct (fun key => ⟨fun hkey => ?_, ?_⟩) ?_
    · obtain ⟨-, value, hmember, hsome⟩ := mem_keys_dropProto.mp hkey
      refine ⟨value, hmember, ?_⟩
      rintro rfl
      cases hsome
    · rintro ⟨value, hmember, hdefined⟩
      obtain ⟨kept, hmem, -⟩ := hkept hmember hdefined
      exact mem_map_of_mem hmem
    · intro key value other hmember hother
      obtain ⟨-, found, hfound, hreduced⟩ := mem_dropProto.mp hother
      obtain rfl : found = value :=
        congrArg Prod.snd (inj_on_of_nodup_map hdistinct hfound hmember rfl)
      have hdefined : found ≠ .undefined := by
        rintro rfl
        cases hreduced
      obtain ⟨kept, hmem, hequal⟩ := hkept hmember hdefined
      obtain rfl : kept = other := value_unique hkeptDistinct hmem hother
      exact hequal

/-! ## Nothing is left out of a value that comes back -/

/-- Where as many items are kept as there are, all of them are. -/
theorem kept_of_length_filterMap (hlength : items.length = (items.filterMap keep).length) :
    List.Forall₂ (fun item kept => keep item = some kept) items (items.filterMap keep) := by
  induction items with
  | nil => exact .nil
  | cons item items ih =>
    have hle := length_filterMap_le keep items
    cases hitem : keep item with
    | none =>
      rw [filterMap_cons, hitem, length_cons] at hlength
      dsimp only at hlength
      omega
    | some kept =>
      rw [filterMap_cons, hitem] at hlength ⊢
      exact .cons hitem (ih (Nat.succ.inj hlength))

theorem nothingLeftOut_of_equalToRead {kept : JsonValue} (hproper : value.proper)
    (hkept : reduced value = some kept) (hequal : EqualToRead value kept) :
    NothingLeftOut value := by
  induction value using JsValue.inductionOn generalizing kept with
  | undefined | null => cases hkept
  | bool value => exact .bool value
  | number value => exact .number value
  | string value =>
    refine .string fun hblank => ?_
    rw [reduced, prune, if_pos (trim_eq_nil.mp hblank)] at hkept
    cases hkept
  | array items ih =>
    have hproper := JsValue.proper_array.mp hproper
    rw [reduced_array, nonemptyArray] at hkept
    split at hkept
    · cases hkept
    · next hne =>
      cases hkept
      cases hequal with
      | array hlength hitems =>
        have hall := kept_of_length_filterMap hlength
        refine .array ?_ fun item hitem => ?_
        · rintro rfl
          exact hne rfl
        · obtain ⟨index, hindex, rfl⟩ := mem_iff_getElem.mp hitem
          exact ih _ hitem (hproper _ hitem) (hall.get hindex (hlength ▸ hindex))
            (hitems index _ _ (getElem?_eq_getElem hindex)
              (getElem?_eq_getElem (hlength ▸ hindex)))
  | object members ih =>
    obtain ⟨hdistinct, hproper⟩ := JsValue.proper_object.mp hproper
    rw [reduced_object, nonemptyObject] at hkept
    split at hkept
    · cases hkept
    · next hne =>
      cases hkept
      cases hequal with
      | object _ hkeys hvalues =>
        have hwritten {member : JsString × JsValue} (hmember : member ∈ members)
            (hdefined : member.2 ≠ .undefined) : member.1 ≠ protoKey ∧
              ∃ kept, reduced member.2 = some kept ∧ EqualToRead member.2 kept := by
          obtain ⟨⟨_, kept⟩, hmem, rfl⟩ :=
            mem_map.mp ((hkeys member.1).mpr ⟨member.2, hmember, hdefined⟩)
          obtain ⟨hkey, found, hfound, hreduced⟩ := mem_dropProto.mp hmem
          obtain rfl : found = member.2 :=
            congrArg Prod.snd (inj_on_of_nodup_map hdistinct hfound hmember rfl)
          exact ⟨hkey, kept, hreduced, hvalues _ _ kept hmember hmem⟩
        refine .object ?_ (fun member hmember hdefined => (hwritten hmember hdefined).1)
          fun member hmember hdefined => ?_
        · obtain ⟨⟨key, kept⟩, hmem⟩ := exists_mem_of_ne_nil _
            (isEmpty_eq_false_iff.mp (Bool.eq_false_iff.mpr hne))
          obtain ⟨value, hmember, hdefined⟩ := (hkeys key).mp (mem_map_of_mem hmem)
          exact ⟨(key, value), hmember, hdefined⟩
        · obtain ⟨-, kept, hreduced, hequal⟩ := hwritten hmember hdefined
          exact ih member hmember (hproper member hmember) hreduced hequal

/-- A value is read back from its canonical text exactly if nothing in it is left out. The
text of what is left out whole reads as null. -/
theorem readBack_iff (hproper : value.proper) (hread : parse (toCanonicalJson value) = some read) :
    EqualToRead value read ↔ value = .null ∨ NothingLeftOut value := by
  obtain ⟨found, hfound, hsame⟩ := parse_toCanonicalJson hproper
  obtain rfl : found = read := Option.some.inj (hfound.symm.trans hread)
  constructor
  · intro hequal
    have hequal := hequal.trans hsame
    cases hkept : reduced value with
    | none =>
      rw [hkept] at hequal
      exact .inl (by cases hequal; rfl)
    | some kept =>
      rw [hkept] at hequal
      exact .inr (nothingLeftOut_of_equalToRead hproper hkept hequal)
  · rintro (rfl | hwhole)
    · exact EqualToRead.null.trans hsame.symm
    · obtain ⟨kept, hkept, hequal⟩ := hwhole.equalToRead hproper
      rw [hkept] at hsame
      exact hequal.trans hsame.symm

end Nobie.Contracts
