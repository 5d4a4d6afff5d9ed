/-
# Stable texts

A value is written for hashing with the members of every object in the order of their keys
as the host collates them. Members that are not defined are left out, anything else that is
not defined is written as null. Values with one text are the same up to the order of keys.
-/

import Nobie.Foundation.JsValueText

namespace Nobie.Runs

open Foundation List

/-! ## Values without what is not defined -/

mutual

def defined : JsValue → JsonValue
  | .undefined | .null => .null
  | .bool value => .bool value
  | .number value => .number value
  | .string value => .string value
  | .array items => .array (definedItems items)
  | .object members => .object (definedMembers members)

def definedItems : List JsValue → List JsonValue
  | [] => []
  | item :: rest => defined item :: definedItems rest

def definedMembers : List (JsString × JsValue) → List (JsString × JsonValue)
  | [] => []
  | (_, .undefined) :: rest => definedMembers rest
  | (key, value) :: rest => (key, defined value) :: definedMembers rest

end

theorem definedItems_eq (items : List JsValue) : definedItems items = items.map defined := by
  induction items with
  | nil => rfl
  | cons item rest ih => rw [definedItems, ih, map_cons]

/-- What is left of an object has keys of the object, in their order. -/
theorem keys_definedMembers (members : List (JsString × JsValue)) :
    ((definedMembers members).map Prod.fst).Sublist (members.map Prod.fst) := by
  induction members with
  | nil => exact .slnil
  | cons member rest ih =>
    obtain ⟨key, value⟩ := member
    cases value with
    | undefined => exact ih.cons key
    | _ => exact ih.cons_cons key

theorem mem_definedMembers {members : List (JsString × JsValue)} {key : JsString}
    {value : JsonValue} (hmember : (key, value) ∈ definedMembers members) :
    ∃ source, (key, source) ∈ members ∧ value = defined source := by
  induction members with
  | nil => cases hmember
  | cons member rest ih =>
    obtain ⟨name, source⟩ := member
    have hlater (hrest : (key, value) ∈ definedMembers rest) :
        ∃ found, (key, found) ∈ (name, source) :: rest ∧ value = defined found := by
      obtain ⟨found, hfound, hvalue⟩ := ih hrest
      exact ⟨found, mem_cons_of_mem _ hfound, hvalue⟩
    have hnow (hmem : (key, value) ∈ (name, defined source) :: definedMembers rest) :
        ∃ found, (key, found) ∈ (name, source) :: rest ∧ value = defined found := by
      obtain hfirst | hrest := mem_cons.mp hmem
      · cases hfirst
        exact ⟨source, mem_cons_self, rfl⟩
      · exact hlater hrest
    cases source with
    | undefined => exact hlater hmember
    | _ => exact hnow hmember

/-- A value that has no key twice has none twice in what is left of it. -/
theorem defined_proper {value : JsValue} (hproper : value.proper) :
    JsonValue.SameUpToKeyOrder (defined value) (defined value) := by
  induction value using JsValue.inductionOn with
  | undefined | null => exact .null
  | bool value => exact .bool value
  | number value => exact .number value
  | string value => exact .string value
  | array items ih =>
    rw [defined, definedItems_eq]
    refine .array rfl fun index item other hitem hother => ?_
    cases hitem.symm.trans hother
    rw [getElem?_map] at hitem
    obtain ⟨source, hsource, rfl⟩ := Option.map_eq_some_iff.mp hitem
    have hmem := mem_of_getElem? hsource
    exact ih source hmem (JsValue.proper_array.mp hproper source hmem)
  | object members ih =>
    obtain ⟨hkeys, hvalues⟩ := JsValue.proper_object.mp hproper
    have hdistinct := (keys_definedMembers members).nodup hkeys
    rw [defined]
    refine .object hdistinct .rfl fun key value other hvalue hother => ?_
    obtain rfl : value = other :=
      congrArg Prod.snd (inj_on_of_nodup_map hdistinct hvalue hother rfl)
    obtain ⟨source, hsource, rfl⟩ := mem_definedMembers hvalue
    exact ih _ hsource (hvalues _ hsource)

/-! ## Texts -/

variable {V : Type} (collate : JsString → JsString → Bool)

/-- Members in the order of their keys; `collate` tells which of two keys may stand first. -/
def sortEntries (members : List (JsString × V)) : List (JsString × V) :=
  members.insertionSort fun first second => collate first.1 second.1

theorem sortEntries_perm (members : List (JsString × V)) :
    (sortEntries collate members).Perm members :=
  perm_insertionSort _ _

def stableStringify (value : JsValue) : List Char :=
  (JsonValue.arranged (sortEntries collate) (defined value)).listing

end Nobie.Runs
