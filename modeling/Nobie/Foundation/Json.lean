/-
# JSON values and their text

One value type serves both ends of every wire and every stored document: the
text written by `serde_json` and by `JSON.stringify` for a value differs only in
how a number is spelled, so a number is kept as its literal and the printer is
shared. The reader follows the JSON grammar, white space and escapes included.

The reader recurses on a fuel argument. One unit for each character and one more
is enough for every text it can accept, since two nested calls are never made
without consuming a character between them.
-/

import Mathlib.Data.Rat.Floor
import Nobie.Foundation.OrderedMap

namespace Nobie.Foundation

/-- A number literal of the JSON grammar. An empty fraction is one that is not
written, and the exponent is kept as the integer it denotes. -/
structure Number where
  negative : Bool
  whole : ℕ
  fraction : List (Fin 10)
  exponent : Option ℤ
  deriving DecidableEq, Repr

/-- A JSON value. The fields of an object stand in the order of the text. -/
inductive Json where
  | null
  | bool (value : Bool)
  | num (value : Number)
  | str (value : String)
  | arr (items : List Json)
  | obj (fields : List (String × Json))
  deriving Repr

namespace Number

/-- The literal of a natural number. -/
def ofNat (n : ℕ) : Number := ⟨false, n, [], none⟩

/-- The exact number a literal denotes. -/
def value (number : Number) : ℚ :=
  let digits := number.fraction.foldl (fun total digit => 10 * total + (digit : ℕ)) number.whole
  let magnitude : ℚ := (digits : ℚ) / 10 ^ number.fraction.length
  let scaled := magnitude * (10 : ℚ) ^ (number.exponent.getD 0)
  if number.negative then -scaled else scaled

/-- Is the number finite once it is rounded to a double? -/
def isFinite (number : Number) : Bool := |number.value| < 2 ^ 1024 - 2 ^ 970

@[simp]
theorem value_ofNat (n : ℕ) : (ofNat n).value = n := by simp [ofNat, value]

end Number

/-- The fields of a JSON object. -/
abbrev JsonObject : Type := List (String × Json)

variable (text : List Char)

namespace Json

/-- Is the value an object, which is what the source's `typeof` and `isArray`
tests together accept? -/
def fields? : Json → Option (List (String × Json))
  | .obj fields => some fields
  | _ => none

/-- The member of an object under a key. A repeated key keeps its last value. -/
def lookup (fields : List (String × Json)) (key : String) : Option Json :=
  (fields.reverse.find? fun field => field.1 == key).map Prod.snd

/-- Property access on a value that may be no object. -/
def field? (value : Json) (key : String) : Option Json :=
  match value with
  | .obj fields => lookup fields key
  | _ => none

/-- The number a key stands for if it is a canonical array index. -/
def arrayIndex? (key : String) : Option ℕ :=
  let digits := key.toList
  if digits ≠ [] ∧ digits.all Char.isDigit ∧ (digits = ['0'] ∨ digits.head? ≠ some '0') then
    some (Nat.ofDigitChars 10 digits 0) |>.filter (· < 2 ^ 32 - 1)
  else none

/-- `Object.entries`: every key once, the array indices first and in order. -/
def entries {V : Type} (fields : List (String × V)) : List (String × V) :=
  let members := (fields.foldl (fun members field => members.set field.1 field.2)
    (∅ : OrderedMap String V)).entries
  let indices := members.filterMap fun member =>
    (arrayIndex? member.1).map fun index => (index, member)
  (indices.mergeSort fun first second => decide (first.1 ≤ second.1)).map Prod.snd ++
    members.filter fun member => (arrayIndex? member.1).isNone

theorem mem_of_mem_entries {V : Type} {fields : List (String × V)} {field : String × V}
    (h : field ∈ entries fields) : field ∈ fields := by
  refine OrderedMap.mem_of_mem_foldl_set (∅ : OrderedMap String V) ?_ |>.resolve_left ?_
  · unfold entries at h
    rcases List.mem_append.mp h with hindex | hrest
    · obtain ⟨⟨index, member⟩, hmember, rfl⟩ := List.mem_map.mp hindex
      rw [List.mem_mergeSort, List.mem_filterMap] at hmember
      obtain ⟨other, hother, hindex⟩ := hmember
      obtain ⟨_, -, heq⟩ := Option.map_eq_some_iff.mp hindex
      exact (Prod.mk.inj heq).2 ▸ hother
    · exact (List.mem_filter.mp hrest).1
  · exact List.not_mem_nil

/-- The truth value the source's conditionals give a value. -/
def truthy : Json → Bool
  | .null => false
  | .bool value => value
  | .num value => value.value ≠ 0
  | .str value => value ≠ ""
  | .arr _ | .obj _ => true

/-! ## Printing -/

/-- A lower case hexadecimal digit. -/
def hexDigit (n : ℕ) : Char := Nat.digitChar n

/-- One character inside a string literal. -/
def printChar (c : Char) : List Char :=
  if c = '"' then ['\\', '"']
  else if c = '\\' then ['\\', '\\']
  else if c = '\n' then ['\\', 'n']
  else if c = '\r' then ['\\', 'r']
  else if c = '\t' then ['\\', 't']
  else if c.toNat = 8 then ['\\', 'b']
  else if c.toNat = 12 then ['\\', 'f']
  else if c.toNat < 32 then
    ['\\', 'u', '0', '0', hexDigit (c.toNat / 16), hexDigit (c.toNat % 16)]
  else [c]

/-- The characters of a string literal up to and including its closing quote. -/
def printChars : List Char → List Char
  | [] => ['"']
  | c :: rest => printChar c ++ printChars rest

def printString (s : String) : List Char := '"' :: printChars s.toList

def printExponent : Option ℤ → List Char
  | none => []
  | some (.ofNat n) => 'e' :: Nat.toDigits 10 n
  | some (.negSucc n) => 'e' :: '-' :: Nat.toDigits 10 (n + 1)

def printFraction (digits : List (Fin 10)) : List Char :=
  if digits = [] then [] else '.' :: digits.map fun digit : Fin 10 => Nat.digitChar digit.val

def printNumber (number : Number) : List Char :=
  (if number.negative then ['-'] else []) ++ Nat.toDigits 10 number.whole ++
    printFraction number.fraction ++ printExponent number.exponent

mutual

/-- The compact text of a value. -/
def print : Json → List Char
  | .null => "null".toList
  | .bool true => "true".toList
  | .bool false => "false".toList
  | .num value => printNumber value
  | .str value => printString value
  | .arr [] => ['[', ']']
  | .arr (item :: items) => '[' :: (print item ++ printItems items)
  | .obj [] => ['{', '}']
  | .obj ((key, value) :: fields) =>
    '{' :: (printString key ++ ':' :: (print value ++ printFields fields))

/-- The text of an array after its first item. -/
def printItems : List Json → List Char
  | [] => [']']
  | item :: items => ',' :: (print item ++ printItems items)

/-- The text of an object after its first member. -/
def printFields : List (String × Json) → List Char
  | [] => ['}']
  | (key, value) :: fields => ',' :: (printString key ++ ':' :: (print value ++ printFields fields))

end

/-- `serde_json::to_string` and `JSON.stringify` of a value. -/
def stringify (value : Json) : String := String.ofList (print value)

/-! ## Reading -/

def isSpace (c : Char) : Bool := c = ' ' || c = '\n' || c = '\r' || c = '\t'

def skipSpace : List Char := text.dropWhile isSpace

/-- The digits at the front of a text. A literal needs at least one. -/
def parseDigits : Option (List Char × List Char) :=
  match text.span Char.isDigit with
  | ([], _) => none
  | (digits, rest) => some (digits, rest)

/-- The whole part: no digit may follow a leading zero. -/
def parseWhole : List Char → Option (ℕ × List Char)
  | '0' :: rest => some (0, rest)
  | text => (parseDigits text).map fun (digits, rest) => (Nat.ofDigitChars 10 digits 0, rest)

def parseFraction : List Char → Option (List (Fin 10) × List Char)
  | '.' :: rest =>
    (parseDigits rest).map fun (digits, rest) =>
      (digits.map fun c => Fin.ofNat 10 (c.toNat - 48), rest)
  | text => some ([], text)

/-- The exponent after its letter. -/
def parseExponentValue : List Char → Option (ℤ × List Char)
  | '-' :: rest =>
    (parseDigits rest).map fun (digits, rest) => (-(Nat.ofDigitChars 10 digits 0 : ℤ), rest)
  | '+' :: rest =>
    (parseDigits rest).map fun (digits, rest) => ((Nat.ofDigitChars 10 digits 0 : ℤ), rest)
  | rest => (parseDigits rest).map fun (digits, rest) => ((Nat.ofDigitChars 10 digits 0 : ℤ), rest)

def parseExponent : List Char → Option (Option ℤ × List Char)
  | 'e' :: rest | 'E' :: rest =>
    (parseExponentValue rest).map fun (exponent, rest) => (some exponent, rest)
  | text => some (none, text)

def parseMagnitude (negative : Bool) (text : List Char) : Option (Number × List Char) := do
  let (whole, rest) ← parseWhole text
  let (fraction, rest) ← parseFraction rest
  let (exponent, rest) ← parseExponent rest
  some (⟨negative, whole, fraction, exponent⟩, rest)

def parseNumber : List Char → Option (Number × List Char)
  | '-' :: rest => parseMagnitude true rest
  | text => parseMagnitude false text

def hexValue (c : Char) : Option ℕ :=
  if c.isDigit then some (c.toNat - 48)
  else if 97 ≤ c.toNat ∧ c.toNat ≤ 102 then some (c.toNat - 87)
  else if 65 ≤ c.toNat ∧ c.toNat ≤ 70 then some (c.toNat - 55)
  else none

/-- The code unit of a `\u` escape. -/
def hexUnit (a b c d : Char) : Option ℕ := do
  let a ← hexValue a
  let b ← hexValue b
  let c ← hexValue c
  let d ← hexValue d
  some (((a * 16 + b) * 16 + c) * 16 + d)

/-- A surrogate pair denotes one character. A surrogate without its partner is
no character; it reads as the replacement character. -/
def pairChar (high low : ℕ) : Option Char :=
  if 0xD800 ≤ high ∧ high < 0xDC00 ∧ 0xDC00 ≤ low ∧ low < 0xE000 then
    some (Char.ofNat (0x10000 + (high - 0xD800) * 0x400 + (low - 0xDC00)))
  else none

def unitChar (unit : ℕ) : Char :=
  if 0xD800 ≤ unit ∧ unit < 0xE000 then Char.ofNat 0xFFFD else Char.ofNat unit

/-- The character of a one-letter escape. -/
def escapeChar : Char → Option Char
  | '"' => some '"'
  | '\\' => some '\\'
  | '/' => some '/'
  | 'b' => some (Char.ofNat 8)
  | 'f' => some (Char.ofNat 12)
  | 'n' => some '\n'
  | 'r' => some '\r'
  | 't' => some '\t'
  | _ => none

/-- The characters of a string literal after its opening quote. -/
def parseChars : List Char → Option (List Char × List Char)
  | [] => none
  | '"' :: rest => some ([], rest)
  | '\\' :: 'u' :: a :: b :: c :: d :: '\\' :: 'u' :: e :: f :: g :: h :: rest =>
    match hexUnit a b c d with
    | none => none
    | some high =>
      match (hexUnit e f g h).bind (pairChar high) with
      | some c => (parseChars rest).map fun (chars, rest) => (c :: chars, rest)
      | none =>
        (parseChars ('\\' :: 'u' :: e :: f :: g :: h :: rest)).map
          fun (chars, rest) => (unitChar high :: chars, rest)
  | '\\' :: 'u' :: a :: b :: c :: d :: rest =>
    match hexUnit a b c d with
    | none => none
    | some unit => (parseChars rest).map fun (chars, rest) => (unitChar unit :: chars, rest)
  | '\\' :: c :: rest =>
    match escapeChar c with
    | none => none
    | some c => (parseChars rest).map fun (chars, rest) => (c :: chars, rest)
  | c :: rest =>
    if c.toNat < 32 then none
    else (parseChars rest).map fun (chars, rest) => (c :: chars, rest)

def parseString : Option (String × List Char) :=
  (parseChars text).map fun (chars, rest) => (String.ofList chars, rest)

mutual

/-- One value and the text after it. -/
def parseValue : ℕ → List Char → Option (Json × List Char)
  | 0, _ => none
  | fuel + 1, text =>
    match skipSpace text with
    | 'n' :: 'u' :: 'l' :: 'l' :: rest => some (.null, rest)
    | 't' :: 'r' :: 'u' :: 'e' :: rest => some (.bool true, rest)
    | 'f' :: 'a' :: 'l' :: 's' :: 'e' :: rest => some (.bool false, rest)
    | '"' :: rest => (parseString rest).map fun (s, rest) => (.str s, rest)
    | '[' :: rest =>
      match skipSpace rest with
      | ']' :: rest => some (.arr [], rest)
      | rest => (parseItems fuel rest).map fun (items, rest) => (.arr items, rest)
    | '{' :: rest =>
      match skipSpace rest with
      | '}' :: rest => some (.obj [], rest)
      | rest => (parseFields fuel rest).map fun (fields, rest) => (.obj fields, rest)
    | text => (parseNumber text).map fun (number, rest) => (.num number, rest)

/-- The items of a nonempty array up to its closing bracket. -/
def parseItems : ℕ → List Char → Option (List Json × List Char)
  | 0, _ => none
  | fuel + 1, text =>
    match parseValue fuel text with
    | none => none
    | some (item, rest) =>
      match skipSpace rest with
      | ']' :: rest => some ([item], rest)
      | ',' :: rest => (parseItems fuel rest).map fun (items, rest) => (item :: items, rest)
      | _ => none

/-- The members of a nonempty object up to its closing brace. -/
def parseFields : ℕ → List Char → Option (List (String × Json) × List Char)
  | 0, _ => none
  | fuel + 1, text =>
    match skipSpace text with
    | '"' :: rest =>
      match parseString rest with
      | none => none
      | some (key, rest) =>
        match skipSpace rest with
        | ':' :: rest =>
          match parseValue fuel rest with
          | none => none
          | some (value, rest) =>
            match skipSpace rest with
            | '}' :: rest => some ([(key, value)], rest)
            | ',' :: rest =>
              (parseFields fuel rest).map fun (fields, rest) => ((key, value) :: fields, rest)
            | _ => none
        | _ => none
    | _ => none

end

/-- `JSON.parse`: one value with nothing but white space around it. -/
def parse (text : String) : Option Json :=
  match parseValue (text.toList.length + 1) text.toList with
  | some (value, rest) => if skipSpace rest = [] then some value else none
  | none => none

end Json

/-! ## The members of objects

A list of members that stands in the order of `Object.entries` is listed as it stands, and a pass
that changes the values and no key can be made before or after the listing. -/

open List OrderedMap

variable {fields : List (String × V)}

namespace Json

/-- Structural induction with the hypothesis for every item and member. -/
@[elab_as_elim]
theorem inductionOn {P : Json → Prop} (value : Json) (null : P .null)
    (bool : ∀ value, P (.bool value)) (num : ∀ value, P (.num value))
    (str : ∀ value, P (.str value)) (arr : ∀ items, (∀ item ∈ items, P item) → P (.arr items))
    (obj : ∀ fields, (∀ field ∈ fields, P field.2) → P (.obj fields)) : P value :=
  @Json.rec P (fun items => ∀ item ∈ items, P item)
    (fun fields => ∀ field ∈ fields, P field.2) (fun field => P field.2)
    null bool num str arr obj
    nofun
    (fun _ _ hfirst hrest => forall_mem_cons.mpr ⟨hfirst, hrest⟩)
    nofun
    (fun _ _ hfirst hrest => forall_mem_cons.mpr ⟨hfirst, hrest⟩)
    (fun _ _ hvalue => hvalue) value

section Entries

variable {V W : Type}

/-- The members stand as an object lists them. -/
structure Listed (fields : List (String × V)) : Prop where
  nodup : (fields.map Prod.fst).Nodup
  ordered : (fields.map Prod.fst).Pairwise (Precedes arrayIndex?)

theorem entries_eq (fields : List (String × V)) :
    entries fields = ownKeyOrder arrayIndex?
      (fields.foldl (fun members field => members.set field.1 field.2)
        (∅ : OrderedMap String V)).entries := rfl

theorem listed_entries (fields : List (String × V)) : Listed (entries fields) := by
  refine ⟨?_, ownKeyOrder_pairwise arrayIndex? _⟩
  rw [entries_eq]
  exact ((ownKeyOrder_perm arrayIndex? _).map Prod.fst).nodup_iff.mpr (OrderedMap.nodup _)

theorem entries_eq_self (h : Listed fields) : entries fields = fields := by
  rw [entries_eq, entries_foldl_set fields ∅ h.nodup]
  exact ownKeyOrder_eq_self h.ordered

/-- The listing commutes with a change of the values. -/
theorem entries_map (f : String → V → W) (fields : List (String × V)) :
    entries (fields.map fun field => (field.1, f field.1 field.2)) =
      (entries fields).map fun field => (field.1, f field.1 field.2) := by
  rw [entries_eq, foldl_set_map f fields ∅ ∅ rfl, ownKeyOrder_map]
  rfl

/-- Keys none of which is an array index may stand in any order. -/
theorem Listed.of_names (hnodup : (fields.map Prod.fst).Nodup)
    (hnames : ∀ key ∈ fields.map Prod.fst, arrayIndex? key = none) : Listed fields := by
  refine ⟨hnodup, pairwise_of_forall_mem_list fun first _ second hsecond index hindex => ?_⟩
  rw [hnames second hsecond] at hindex
  cases hindex

theorem Listed.sublist {others : List (String × V)} (h : Listed others)
    (hsublist : (fields.map Prod.fst).Sublist (others.map Prod.fst)) : Listed fields :=
  ⟨h.nodup.sublist hsublist, h.ordered.sublist hsublist⟩

theorem Listed.map {fields : List (String × V)} (h : Listed fields) (f : String → V → W) :
    Listed (fields.map fun field => (field.1, f field.1 field.2)) := by
  have hkeys : (fields.map fun field => (field.1, f field.1 field.2)).map Prod.fst =
      fields.map Prod.fst := by
    rw [map_map]
    rfl
  exact ⟨hkeys ▸ h.nodup, hkeys ▸ h.ordered⟩

/-- A key that is no array index is written in its place or at the end. -/
theorem Listed.insertEntry {fields : List (String × V)} (h : Listed fields) {key : String}
    (hkey : arrayIndex? key = none) (value : V) :
    Listed (OrderedMap.insertEntry fields key value) := by
  refine ⟨nodup_insertEntry h.nodup key value, ?_⟩
  by_cases hmem : key ∈ fields.map Prod.fst
  · rw [keys_insertEntry_of_mem value hmem]
    exact h.ordered
  · rw [insertEntry_of_not_mem value hmem, map_append, pairwise_append]
    refine ⟨h.ordered, pairwise_singleton _ _, fun first _ second hsecond => ?_⟩
    rw [map_singleton, mem_singleton] at hsecond
    subst hsecond
    intro index hindex
    rw [hkey] at hindex
    cases hindex

end Entries

end Json

end Nobie.Foundation
