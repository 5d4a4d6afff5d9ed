/-
# Values of JavaScript

A value of the host as far as JSON goes, with `undefined`, which may stand for a member or
an item; and a JSON value, which has none. Both keep the members of an object in the order
of insertion. Two JSON values are the same up to the order of keys when their arrays agree
item by item and their objects hold the same under the same keys. One whose keys are sorted
at every depth is determined by this.
-/

import Mathlib.Data.List.Forall2
import Mathlib.Data.List.Sort
import Nobie.Foundation.JsString

namespace Nobie.Foundation

open List

/-- A value of the host. A number is kept as the literal the host spells it with. -/
inductive JsValue
  | undefined | null
  | bool (value : Bool)
  | number (value : Number)
  | string (value : JsString)
  | array (items : List JsValue)
  | object (members : List (JsString × JsValue))

/-- A JSON value. -/
inductive JsonValue
  | null
  | bool (value : Bool)
  | number (value : Number)
  | string (value : JsString)
  | array (items : List JsonValue)
  | object (members : List (JsString × JsonValue))

namespace JsValue

/-- Structural induction with the hypothesis for every item and member. -/
@[elab_as_elim]
theorem inductionOn {P : JsValue → Prop} (value : JsValue) (undefined : P .undefined)
    (null : P .null) (bool : ∀ value, P (.bool value)) (number : ∀ value, P (.number value))
    (string : ∀ value, P (.string value))
    (array : ∀ items, (∀ item ∈ items, P item) → P (.array items))
    (object : ∀ members, (∀ member ∈ members, P member.2) → P (.object members)) : P value :=
  @JsValue.rec P (fun items => ∀ item ∈ items, P item)
    (fun members => ∀ member ∈ members, P member.2) (fun member => P member.2)
    undefined null bool number string array object
    nofun
    (fun _ _ hfirst hrest => forall_mem_cons.mpr ⟨hfirst, hrest⟩)
    nofun
    (fun _ _ hfirst hrest => forall_mem_cons.mpr ⟨hfirst, hrest⟩)
    (fun _ _ hvalue => hvalue) value

mutual

/-- No object of the value has a key twice. -/
def proper : JsValue → Bool
  | .undefined | .null | .bool _ | .number _ | .string _ => true
  | .array items => properItems items
  | .object members => decide (members.map Prod.fst).Nodup && properMembers members

def properItems : List JsValue → Bool
  | [] => true
  | item :: rest => proper item && properItems rest

def properMembers : List (JsString × JsValue) → Bool
  | [] => true
  | (_, value) :: rest => proper value && properMembers rest

end

@[simp]
theorem proper_array {items : List JsValue} :
    (array items).proper ↔ ∀ item ∈ items, item.proper := by
  rw [proper]
  induction items with
  | nil => simp [properItems]
  | cons item rest ih => simp [properItems, ih]

@[simp]
theorem proper_object {members : List (JsString × JsValue)} :
    (object members).proper ↔
      (members.map Prod.fst).Nodup ∧ ∀ member ∈ members, member.2.proper := by
  have hmembers : properMembers members ↔ ∀ member ∈ members, member.2.proper := by
    induction members with
    | nil => simp [properMembers]
    | cons member rest ih =>
      obtain ⟨key, value⟩ := member
      rw [properMembers, Bool.and_eq_true, ih, forall_mem_cons]
  rw [proper, Bool.and_eq_true, decide_eq_true_iff, hmembers]

end JsValue

/-- A value the host can hold: no object has a key twice. -/
structure PlainValue where
  value : JsValue
  proper : value.proper

/-- The own members of a plain object. -/
structure PlainObject where
  members : List (JsString × JsValue)
  proper : (JsValue.object members).proper

variable {first second : JsonValue}

namespace JsonValue

@[elab_as_elim]
theorem inductionOn {P : JsonValue → Prop} (value : JsonValue) (null : P .null)
    (bool : ∀ value, P (.bool value)) (number : ∀ value, P (.number value))
    (string : ∀ value, P (.string value))
    (array : ∀ items, (∀ item ∈ items, P item) → P (.array items))
    (object : ∀ members, (∀ member ∈ members, P member.2) → P (.object members)) : P value :=
  @JsonValue.rec P (fun items => ∀ item ∈ items, P item)
    (fun members => ∀ member ∈ members, P member.2) (fun member => P member.2)
    null bool number string array object
    nofun
    (fun _ _ hfirst hrest => forall_mem_cons.mpr ⟨hfirst, hrest⟩)
    nofun
    (fun _ _ hfirst hrest => forall_mem_cons.mpr ⟨hfirst, hrest⟩)
    (fun _ _ hvalue => hvalue) value

/-! ## Sameness up to the order of keys -/

/-- Arrays agree item by item; objects have the same keys, each once, and the same under
each. -/
inductive SameUpToKeyOrder : JsonValue → JsonValue → Prop
  | null : SameUpToKeyOrder .null .null
  | bool (value : Bool) : SameUpToKeyOrder (.bool value) (.bool value)
  | number (value : Number) : SameUpToKeyOrder (.number value) (.number value)
  | string (value : JsString) : SameUpToKeyOrder (.string value) (.string value)
  | array {items others : List JsonValue} (hlength : items.length = others.length)
      (hitems : ∀ (index : ℕ) item other, items[index]? = some item →
        others[index]? = some other → SameUpToKeyOrder item other) :
      SameUpToKeyOrder (.array items) (.array others)
  | object {members others : List (JsString × JsonValue)}
      (hdistinct : (members.map Prod.fst).Nodup)
      (hkeys : (members.map Prod.fst).Perm (others.map Prod.fst))
      (hvalues : ∀ key value other, (key, value) ∈ members → (key, other) ∈ others →
        SameUpToKeyOrder value other) :
      SameUpToKeyOrder (.object members) (.object others)

namespace SameUpToKeyOrder

theorem symm (hsame : SameUpToKeyOrder first second) : SameUpToKeyOrder second first := by
  induction hsame with
  | null => exact .null
  | bool value => exact .bool value
  | number value => exact .number value
  | string value => exact .string value
  | array hlength _ ih =>
    exact .array hlength.symm fun index other item hother hitem => ih index item other hitem hother
  | object hdistinct hkeys _ ih =>
    exact .object (hkeys.nodup hdistinct) hkeys.symm
      fun key other value hother hvalue => ih key value other hvalue hother

theorem trans {third : JsonValue} (hfirst : SameUpToKeyOrder first second)
    (hsecond : SameUpToKeyOrder second third) : SameUpToKeyOrder first third := by
  induction hfirst generalizing third with
  | null | bool | number | string => exact hsecond
  | @array items others hlength _ ih =>
    cases hsecond with
    | @array _ last hlast hitems =>
      refine .array (hlength.trans hlast) fun index item other hitem hother => ?_
      obtain ⟨hindex, -⟩ := List.getElem?_eq_some_iff.mp hitem
      have hbetween : others[index]? = some others[index] := getElem?_eq_getElem (hlength ▸ hindex)
      exact ih index item _ hitem hbetween (hitems index _ other hbetween hother)
  | @object members others hdistinct hkeys _ ih =>
    cases hsecond with
    | @object _ last hothers hlast hvalues =>
      refine .object hdistinct (hkeys.trans hlast) fun key value other hvalue hother => ?_
      have hkey : key ∈ others.map Prod.fst := hkeys.subset (mem_map_of_mem hvalue)
      obtain ⟨⟨_, between⟩, hbetween, rfl⟩ := mem_map.mp hkey
      exact ih _ value between hvalue hbetween (hvalues _ between other hbetween hother)

end SameUpToKeyOrder

/-! ## Sorted keys -/

/-- The keys are sorted at every depth. -/
inductive KeySorted : JsonValue → Prop
  | null : KeySorted .null
  | bool (value : Bool) : KeySorted (.bool value)
  | number (value : Number) : KeySorted (.number value)
  | string (value : JsString) : KeySorted (.string value)
  | array {items : List JsonValue} (hitems : ∀ item ∈ items, KeySorted item) :
      KeySorted (.array items)
  | object {members : List (JsString × JsonValue)}
      (hkeys : (members.map Prod.fst).Pairwise (· < ·))
      (hmembers : ∀ member ∈ members, KeySorted member.2) : KeySorted (.object members)

/-- Members in the order of their keys are determined by what they are. -/
theorem eq_of_perm_of_sorted {V : Type} {members others : List (JsString × V)}
    (hperm : members.Perm others) (hmembers : (members.map Prod.fst).Pairwise (· < ·))
    (hothers : (others.map Prod.fst).Pairwise (· < ·)) : members = others := by
  refine List.Perm.eq_of_pairwise (fun first second _ _ hlt hgt => ?_)
    (pairwise_map.mp hmembers) (pairwise_map.mp hothers) hperm
  exact absurd hgt (lt_asymm hlt)

/-- Values that are the same up to the order of keys are equal when both are sorted. -/
theorem SameUpToKeyOrder.eq_of_keySorted (hsame : SameUpToKeyOrder first second)
    (hfirst : KeySorted first) (hsecond : KeySorted second) : first = second := by
  induction hsame with
  | null | bool | number | string => rfl
  | @array items others hlength _ ih =>
    cases hfirst with
    | array hfirst =>
      cases hsecond with
      | array hsecond =>
        refine congrArg JsonValue.array (ext_getElem hlength fun index hitem hother => ?_)
        exact ih index _ _ (getElem?_eq_getElem hitem) (getElem?_eq_getElem hother)
          (hfirst _ (getElem_mem hitem)) (hsecond _ (getElem_mem hother))
  | @object members others hdistinct hkeys _ ih =>
    cases hfirst with
    | object hsorted hfirst =>
      cases hsecond with
      | object hothers hsecond =>
        have hequal {key : JsString} {value other : JsonValue} (hvalue : (key, value) ∈ members)
            (hother : (key, other) ∈ others) : value = other :=
          ih key value other hvalue hother (hfirst _ hvalue) (hsecond _ hother)
        have hperm : members.Perm others := by
          refine (perm_ext_iff_of_nodup hdistinct.of_map (hkeys.nodup hdistinct).of_map).mpr
              fun ⟨key, value⟩ => ⟨fun hvalue => ?_, fun hother => ?_⟩
          · obtain ⟨⟨_, other⟩, hother, rfl⟩ := mem_map.mp (hkeys.subset (mem_map_of_mem hvalue))
            rw [hequal hvalue hother]
            exact hother
          · obtain ⟨⟨_, found⟩, hfound, rfl⟩ :=
              mem_map.mp (hkeys.symm.subset (mem_map_of_mem hother))
            rw [← hequal hfound hother]
            exact hfound
        rw [eq_of_perm_of_sorted hperm hsorted hothers]

end JsonValue

namespace PlainValue

def undefined : PlainValue := ⟨.undefined, rfl⟩

def asText? : PlainValue → Option JsString
  | ⟨.string value, _⟩ => some value
  | _ => none

/-- `undefined` or `null`. -/
def isNullish : PlainValue → Bool
  | ⟨.undefined, _⟩ | ⟨.null, _⟩ => true
  | _ => false

end PlainValue

namespace PlainObject

def empty : PlainObject := ⟨[], rfl⟩

/-- The member under a key. -/
def get? (object : PlainObject) (key : JsString) : Option PlainValue :=
  match hvalue : OrderedMap.lookup object.members key with
  | none => none
  | some value => some ⟨value, (JsValue.proper_object.mp object.proper).2 (key, value)
      (OrderedMap.mem_entries_of_lookup hvalue)⟩

end PlainObject

end Nobie.Foundation
