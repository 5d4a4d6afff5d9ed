/-
# Reading the text of a JSON value

`JSON.parse` reads code units: an escape is one unit, so a surrogate without its partner
comes back as it was. A repeated key keeps its place and takes its last value. What is read
from the text of a value is the value, except that objects list their members in the order
of own keys.
-/

import Nobie.Foundation.JsValueText

namespace Nobie.Foundation

open List JsString

variable {c : Char} (rest : List Char) {value : JsonValue} {items : List JsonValue} {fuel : ℕ}
  {members read : List (JsString × JsonValue)} {key : JsString}

namespace JsString

/-- The code units of a string literal after its opening quote. -/
def parseUnits : List Char → Option (JsString × List Char)
  | [] => none
  | '"' :: rest => some ([], rest)
  | '\\' :: 'u' :: a :: b :: c :: d :: rest =>
    match Json.hexUnit a b c d with
    | none => none
    | some unit => (parseUnits rest).map fun (units, rest) => (codeUnit unit :: units, rest)
  | '\\' :: letter :: rest =>
    match Json.escapeChar letter with
    | none => none
    | some c =>
      (parseUnits rest).map fun (units, rest) => (pointUnits (codePoint c.toNat) ++ units, rest)
  | c :: rest =>
    if c.toNat < 32 then none
    else
      (parseUnits rest).map fun (units, rest) => (pointUnits (codePoint c.toNat) ++ units, rest)

/-- What is read is put before what follows it. -/
def prepend (units : JsString) (read : Option (JsString × List Char)) :
    Option (JsString × List Char) :=
  read.map fun (following, rest) => (units ++ following, rest)

theorem parseUnits_escape {a b d : Char} {unit : ℕ} (hunit : Json.hexUnit a b c d = some unit)
    (rest : List Char) :
    parseUnits ('\\' :: 'u' :: a :: b :: c :: d :: rest) =
      prepend [codeUnit unit] (parseUnits rest) := by
  rw [parseUnits.eq_def]
  simp only [hunit]
  rfl

theorem parseUnits_plain {c : Char} (hquote : c ≠ '"') (hslash : c ≠ '\\')
    (hcontrol : ¬ c.toNat < 32) (rest : List Char) :
    parseUnits (c :: rest) = prepend (pointUnits (codePoint c.toNat)) (parseUnits rest) := by
  rw [parseUnits.eq_def]
  split
  · next heq => cases heq
  · next heq => exact absurd (List.cons.inj heq).1 hquote
  · next heq => exact absurd (List.cons.inj heq).1 hslash
  · next heq => exact absurd (List.cons.inj heq).1 hslash
  · next heq =>
    obtain ⟨rfl, rfl⟩ := List.cons.inj heq
    rw [if_neg hcontrol]
    rfl

theorem pointUnits_small {n : ℕ} (hn : n < 0x10000) : pointUnits (codePoint n) = [codeUnit n] := by
  have hval : (codePoint n).val = n := Nat.mod_eq_of_lt (by omega)
  rw [pointUnits, hval, if_pos hn]
  rfl

theorem parseUnits_printChar (c : Char) (rest : List Char) :
    parseUnits (Json.printChar c ++ rest) =
      prepend (pointUnits (codePoint c.toNat)) (parseUnits rest) := by
  unfold Json.printChar
  split_ifs with hquote hslash hnewline hreturn htab hback hfeed hcontrol
  · rw [hquote]
    rfl
  · rw [hslash]
    rfl
  · rw [hnewline]
    rfl
  · rw [hreturn]
    rfl
  · rw [htab]
    rfl
  · rw [hback]
    rfl
  · rw [hfeed]
    rfl
  · rw [pointUnits_small (by omega)]
    exact parseUnits_escape (Json.hexUnit_small hcontrol) rest
  · exact parseUnits_plain hquote hslash hcontrol rest

/-- A quoted code point is read as its code units. -/
theorem parseUnits_quotePoint (point : CodePoint) (rest : List Char) :
    parseUnits (quotePoint point ++ rest) = prepend (pointUnits point) (parseUnits rest) := by
  have hpoint : codePoint point.val = point := Fin.ext (Nat.mod_eq_of_lt point.isLt)
  unfold quotePoint
  split_ifs with hsurrogate
  · have hsmall : point.val < 0x10000 := hsurrogate.2.trans (by decide)
    rw [← hpoint, pointUnits_small hsmall, hpoint]
    exact parseUnits_escape (hexUnit_digits hsmall) rest
  · rw [parseUnits_printChar, toNat_ofNat_of_not_surrogate hsurrogate, hpoint]

theorem parseUnits_quotePoints (points : List CodePoint) (rest : List Char) :
    parseUnits (points.flatMap quotePoint ++ '"' :: rest) =
      some (points.flatMap pointUnits, rest) := by
  induction points with
  | nil => rfl
  | cons point points ih =>
    rw [flatMap_cons, append_assoc, parseUnits_quotePoint, ih, flatMap_cons]
    rfl

/-- A quoted string is read back. -/
theorem parseUnits_quote {text : JsString} {quoted rest : List Char}
    (hquoted : quote text ++ rest = '"' :: quoted) : parseUnits quoted = some (text, rest) := by
  unfold quote at hquoted
  rw [cons_append, append_assoc] at hquoted
  rw [← (List.cons.inj hquoted).2]
  exact (parseUnits_quotePoints _ rest).trans (by rw [flatMap_pointUnits])

end JsString

namespace JsonValue

open Json (EndsNumber endsNumber_delimiter parseNumber parseNumber_spell skipSpace
  skipSpace_of_head spellNumber_head)

/-! ## Reading -/

/-- The members of an object as its text lists them: a repeated key overwrites the value
under it. -/
def readMembers (members : List (JsString × JsonValue)) : List (JsString × JsonValue) :=
  members.foldl (fun found member => OrderedMap.insertEntry found member.1 member.2) []

mutual

/-- One value and the text after it. A number is kept as the literal of the text, which is
the host's own spelling where the host wrote the text. -/
def parseValue : ℕ → List Char → Option (JsonValue × List Char)
  | 0, _ => none
  | fuel + 1, text =>
    match skipSpace text with
    | 'n' :: 'u' :: 'l' :: 'l' :: rest => some (.null, rest)
    | 't' :: 'r' :: 'u' :: 'e' :: rest => some (.bool true, rest)
    | 'f' :: 'a' :: 'l' :: 's' :: 'e' :: rest => some (.bool false, rest)
    | '"' :: rest => (parseUnits rest).map fun (units, rest) => (.string units, rest)
    | '[' :: rest =>
      match skipSpace rest with
      | ']' :: rest => some (.array [], rest)
      | rest => (parseItems fuel rest).map fun (items, rest) => (.array items, rest)
    | '{' :: rest =>
      match skipSpace rest with
      | '}' :: rest => some (.object [], rest)
      | rest =>
        (parseMembers fuel rest).map fun (members, rest) => (.object (readMembers members), rest)
    | text => (parseNumber text).map fun (literal, rest) => (.number literal, rest)

/-- The items of a nonempty array up to its closing bracket. -/
def parseItems : ℕ → List Char → Option (List JsonValue × List Char)
  | 0, _ => none
  | fuel + 1, text =>
    match parseValue fuel text with
    | none => none
    | some (item, rest) =>
      match skipSpace rest with
      | ']' :: rest => some ([item], rest)
      | ',' :: rest => (parseItems fuel rest).map fun (items, rest) => (item :: items, rest)
      | _ => none

/-- The members of a nonempty object up to its closing brace. -/
def parseMembers : ℕ → List Char → Option (List (JsString × JsonValue) × List Char)
  | 0, _ => none
  | fuel + 1, text =>
    match skipSpace text with
    | '"' :: rest =>
      match parseUnits rest with
      | none => none
      | some (key, rest) =>
        match skipSpace rest with
        | ':' :: rest =>
          match parseValue fuel rest with
          | none => none
          | some (value, rest) =>
            match skipSpace rest with
            | '}' :: rest => some ([(key, value)], rest)
            | ',' :: rest =>
              (parseMembers fuel rest).map fun (members, rest) => ((key, value) :: members, rest)
            | _ => none
        | _ => none
    | _ => none

end

/-- `JSON.parse`: one value with nothing but white space around it. -/
def parse (text : String) : Option JsonValue :=
  match parseValue (text.toList.length + 1) text.toList with
  | some (value, rest) => if skipSpace rest = [] then some value else none
  | none => none

/-! ## Reading what was written -/

/-- The text of the value is read as the value, up to the order of keys, whatever follows. -/
def ReadBack (value : JsonValue) : Prop :=
  ∀ (fuel : ℕ) (rest : List Char), (text value).length ≤ fuel → EndsNumber rest →
    ∃ read, parseValue fuel (text value ++ rest) = some (read, rest) ∧ SameUpToKeyOrder read value

theorem length_tailText (close : Char) (texts : List (List Char)) :
    0 < (tailText close texts).length := by
  cases texts <;> simp [tailText]

theorem isSpace_text_head {tail : List Char} (htext : text value = c :: tail) :
    Json.isSpace c = false := by
  obtain ⟨d, rest, hhead, hkind, -⟩ := text_head value
  obtain ⟨rfl, -⟩ := List.cons.inj (htext.symm.trans hhead)
  cases value with
  | number value =>
    obtain ⟨d, rest, hspell, hd⟩ := spellNumber_head value
    rw [text, hspell] at htext
    obtain ⟨rfl, -⟩ := List.cons.inj htext
    obtain rfl | hdigit := hd
    · rfl
    · exact (Json.startsValue_of_isDigit hdigit).1
  | null | string | array | object =>
        rw [text] at htext; obtain ⟨rfl, -⟩ := List.cons.inj htext; rfl
  | bool value =>
    cases value <;> rw [text] at htext <;> obtain ⟨rfl, -⟩ := List.cons.inj htext <;> rfl

/-- A nonempty array is read item by item. -/
theorem parseItems_listText (hne : items ≠ []) (hread : ∀ item ∈ items, ReadBack item)
    (hfuel : (listText ']' (items.map text)).length ≤ fuel) (rest : List Char) :
    ∃ found, parseItems fuel (listText ']' (items.map text) ++ rest) = some (found, rest) ∧
      List.Forall₂ SameUpToKeyOrder found items := by
  induction items generalizing fuel with
  | nil => exact absurd rfl hne
  | cons item items ih =>
    rw [map_cons, listText, length_append] at hfuel
    have htail := length_tailText ']' (items.map text)
    obtain ⟨fuel, rfl⟩ := Nat.exists_eq_add_one_of_ne_zero (n := fuel) (by omega)
    obtain ⟨read, hitem, hsame⟩ := hread item mem_cons_self fuel
      (tailText ']' (items.map text) ++ rest) (by omega)
      (endsNumber_tailText (.inl rfl) _ _)
    rw [map_cons, listText, append_assoc, parseItems, hitem]
    cases items with
    | nil => exact ⟨[read], rfl, .cons hsame .nil⟩
    | cons next items =>
      have hrest : (listText ']' ((next :: items).map text)).length ≤ fuel := by
        rw [map_cons, tailText, length_cons] at hfuel
        rw [map_cons, listText]
        omega
      obtain ⟨found, hfound, hfoundSame⟩ := ih (cons_ne_nil _ _)
        (fun item hitem => hread item (mem_cons_of_mem _ hitem)) hrest
      refine ⟨read :: found, ?_, .cons hsame hfoundSame⟩
      rw [map_cons, listText] at hfound
      rw [map_cons, tailText, cons_append]
      simp only [skipSpace_of_head (show Json.isSpace ',' = false by decide), hfound,
        Option.map_some]

/-- A member that was read is the member that was written. -/
def SameMember (read member : JsString × JsonValue) : Prop :=
  read.1 = member.1 ∧ SameUpToKeyOrder read.2 member.2

/-- A nonempty object is read member by member. -/
theorem parseMembers_listText (hne : members ≠ []) (hread : ∀ member ∈ members, ReadBack member.2)
    (hfuel : (listText '}' (members.map fun member =>
      memberText (member.1, text member.2))).length ≤ fuel) (rest : List Char) :
    ∃ found, parseMembers fuel (listText '}' (members.map fun member =>
        memberText (member.1, text member.2)) ++ rest) = some (found, rest) ∧
      List.Forall₂ SameMember found members := by
  induction members generalizing fuel with
  | nil => exact absurd rfl hne
  | cons member members ih =>
    obtain ⟨key, value⟩ := member
    rw [map_cons, listText, memberText, length_append, length_append, length_cons] at hfuel
    dsimp only at hfuel
    have htail := length_tailText '}' (members.map fun member =>
      memberText (member.1, text member.2))
    obtain ⟨fuel, rfl⟩ := Nat.exists_eq_add_one_of_ne_zero (n := fuel) (by omega)
    obtain ⟨read, hvalue, hsame⟩ := hread (key, value) mem_cons_self fuel
      (tailText '}' (members.map fun member => memberText (member.1, text member.2)) ++ rest)
      (by dsimp only; omega) (endsNumber_tailText (.inr rfl) _ _)
    obtain ⟨quoted, hquoted⟩ : ∃ quoted, quote key ++ (':' :: (text value ++
        (tailText '}' (members.map fun member => memberText (member.1, text member.2)) ++
          rest))) = '"' :: quoted := ⟨_, rfl⟩
    rw [map_cons, listText, memberText]
    simp only [append_assoc, cons_append]
    rw [hquoted, parseMembers, skipSpace_of_head (by decide)]
    simp only [parseUnits_quote hquoted,
      skipSpace_of_head (show Json.isSpace ':' = false by decide), hvalue]
    cases members with
    | nil => exact ⟨[(key, read)], rfl, .cons ⟨rfl, hsame⟩ .nil⟩
    | cons next members =>
      have hrest : (listText '}' ((next :: members).map fun member =>
          memberText (member.1, text member.2))).length ≤ fuel := by
        rw [map_cons, tailText, length_cons] at hfuel
        rw [map_cons, listText]
        omega
      obtain ⟨found, hfound, hfoundSame⟩ := ih (cons_ne_nil _ _)
        (fun member hmember => hread member (mem_cons_of_mem _ hmember)) hrest
      refine ⟨(key, read) :: found, ?_, .cons ⟨rfl, hsame⟩ hfoundSame⟩
      rw [map_cons, listText] at hfound
      rw [map_cons, tailText, cons_append]
      simp only [skipSpace_of_head (show Json.isSpace ',' = false by decide), hfound,
        Option.map_some]

theorem keys_eq_of_forall₂ (hread : List.Forall₂ SameMember read members) :
    read.map Prod.fst = members.map Prod.fst := by
  induction hread with
  | nil => rfl
  | cons hmember _ ih => rw [map_cons, map_cons, hmember.1, ih]

theorem mem_of_forall₂ (hread : List.Forall₂ SameMember read members) (hmem : (key, value) ∈ read) :
    ∃ written, (key, written) ∈ members ∧ SameUpToKeyOrder value written := by
  induction hread with
  | nil => cases hmem
  | @cons found member _ _ hmember _ ih =>
    obtain rfl | hmem := mem_cons.mp hmem
    · obtain ⟨key', written⟩ := member
      obtain rfl : key = key' := hmember.1
      exact ⟨written, mem_cons_self, hmember.2⟩
    · obtain ⟨written, hwritten, hsame⟩ := ih hmem
      exact ⟨written, mem_cons_of_mem _ hwritten, hsame⟩

theorem value_unique (hdistinct : (members.map Prod.fst).Nodup) {other : JsonValue}
    (hvalue : (key, value) ∈ members) (hother : (key, other) ∈ members) : value = other :=
  congrArg Prod.snd (inj_on_of_nodup_map hdistinct hvalue hother rfl)

/-- Members under different keys are the members of the object. -/
theorem readMembers_eq (hdistinct : (members.map Prod.fst).Nodup) :
    readMembers members = members := by
  have hfold (found rest : List (JsString × JsonValue))
      (hdistinct : (found.map Prod.fst ++ rest.map Prod.fst).Nodup) :
      rest.foldl (fun found member => OrderedMap.insertEntry found member.1 member.2) found =
        found ++ rest := by
    induction rest generalizing found with
    | nil => rw [foldl_nil, append_nil]
    | cons member rest ih =>
      have hfresh : member.1 ∉ found.map Prod.fst := fun hmem =>
        (nodup_append.mp hdistinct).2.2 _ hmem _ mem_cons_self rfl
      rw [foldl_cons, OrderedMap.insertEntry_of_not_mem _ hfresh, ih]
      · rw [append_assoc]
        rfl
      · rw [map_append, append_assoc]
        exact hdistinct
  exact hfold [] members hdistinct

theorem sameUpToKeyOrder_array {others : List JsonValue}
    (hsame : List.Forall₂ SameUpToKeyOrder items others) :
    SameUpToKeyOrder (.array items) (.array others) := by
  refine .array hsame.length_eq fun index item other hitem hother => ?_
  obtain ⟨hindex, rfl⟩ := List.getElem?_eq_some_iff.mp hitem
  obtain ⟨hindex', rfl⟩ := List.getElem?_eq_some_iff.mp hother
  exact hsame.get hindex hindex'

theorem text_ne_nil (value : JsonValue) : (text value).length ≠ 0 := by
  obtain ⟨c, tail, htext, -⟩ := text_head value
  rw [htext]
  exact Nat.succ_ne_zero _

theorem parseValue_items (fuel : ℕ) (hspace : Json.isSpace c = false) (hc : c ≠ ']')
    (tail : List Char) :
    parseValue (fuel + 1) ('[' :: c :: tail) =
      (parseItems fuel (c :: tail)).map fun (items, rest) => (.array items, rest) := by
  rw [parseValue, skipSpace_of_head (by decide)]
  simp only
  rw [skipSpace_of_head hspace]
  split
  · next heq => exact absurd (List.cons.inj heq).1 hc
  · rfl

theorem parseValue_number (hc : c = '-' ∨ c.isDigit) (fuel : ℕ) (tail : List Char) :
    parseValue (fuel + 1) (c :: tail) =
      (parseNumber (c :: tail)).map fun (literal, rest) => (.number literal, rest) := by
  have hne (d : Char) := @Json.numberHead_ne c d hc
  rw [parseValue, skipSpace_of_head (Json.isSpace_numberHead hc)]
  split
  · next heq => exact absurd (List.cons.inj heq).1 (hne 'n' (by decide))
  · next heq => exact absurd (List.cons.inj heq).1 (hne 't' (by decide))
  · next heq => exact absurd (List.cons.inj heq).1 (hne 'f' (by decide))
  · next heq => exact absurd (List.cons.inj heq).1 (hne '"' (by decide))
  · next heq => exact absurd (List.cons.inj heq).1 (hne '[' (by decide))
  · next heq => exact absurd (List.cons.inj heq).1 (hne '{' (by decide))
  · rfl

theorem exists_fuel {value : JsonValue} {fuel : ℕ} (hfuel : (text value).length ≤ fuel) :
    ∃ rest, fuel = rest + 1 :=
  Nat.exists_eq_add_one_of_ne_zero fun hzero =>
    text_ne_nil _ (Nat.le_zero.mp (hzero ▸ hfuel))

theorem readBack_array (hread : ∀ item ∈ items, ReadBack item) : ReadBack (.array items) := by
  intro fuel rest hfuel _
  obtain ⟨fuel, rfl⟩ := exists_fuel hfuel
  rw [text_array] at hfuel ⊢
  cases items with
  | nil => exact ⟨.array [], rfl, sameUpToKeyOrder_array .nil⟩
  | cons item items =>
    obtain ⟨found, hfound, hsame⟩ := parseItems_listText (cons_ne_nil _ _) hread
      (Nat.le_of_succ_le_succ hfuel) rest
    obtain ⟨c, tail, htext, -, hc, -⟩ := text_head item
    rw [map_cons, listText, htext, cons_append, cons_append] at hfound
    rw [map_cons, listText, htext, cons_append, cons_append, cons_append,
      parseValue_items fuel (isSpace_text_head htext) hc, hfound]
    exact ⟨.array found, rfl, sameUpToKeyOrder_array hsame⟩

theorem readBack_object (hdistinct : (members.map Prod.fst).Nodup)
    (hread : ∀ member ∈ members, ReadBack member.2) : ReadBack (.object members) := by
  intro fuel rest hfuel _
  obtain ⟨fuel, rfl⟩ := exists_fuel hfuel
  rw [text_object] at hfuel ⊢
  have hperm := ownKeyOrder_perm arrayIndex? members
  have hread' : ∀ member ∈ ownKeyOrder arrayIndex? members, ReadBack member.2 :=
    fun member hmember => hread member (hperm.subset hmember)
  cases hlisted : ownKeyOrder arrayIndex? members with
  | nil =>
    rw [hlisted] at hperm
    obtain rfl := hperm.nil_eq
    exact ⟨.object [], rfl, .object hdistinct .rfl (by simp)⟩
  | cons member listed =>
    rw [hlisted] at hfuel hread' hperm
    obtain ⟨found, hfound, hsame⟩ := parseMembers_listText (cons_ne_nil _ _) hread'
      (Nat.le_of_succ_le_succ hfuel) rest
    have hkeys : (found.map Prod.fst).Perm (members.map Prod.fst) := by
      rw [keys_eq_of_forall₂ hsame]
      exact hperm.map _
    refine ⟨.object found, ?_, .object (hkeys.nodup_iff.mpr hdistinct) hkeys ?_⟩
    · have hvalue : parseValue (fuel + 1) ('{' :: (listText '}' ((member :: listed).map
          fun member => memberText (member.1, text member.2)) ++ rest)) =
            (parseMembers fuel (listText '}' ((member :: listed).map
              fun member => memberText (member.1, text member.2)) ++ rest)).map
                fun (members, rest) => (.object (readMembers members), rest) := rfl
      rw [cons_append, hvalue, hfound, Option.map_some]
      dsimp only
      rw [readMembers_eq (hkeys.nodup_iff.mpr hdistinct)]
    · intro key value other hvalue hother
      obtain ⟨written, hwritten, hsameValue⟩ := mem_of_forall₂ hsame hvalue
      obtain rfl : written = other := value_unique hdistinct (hperm.subset hwritten) hother
      exact hsameValue

/-- A value in which no object has a key twice is read back. -/
theorem readBack (hproper : SameUpToKeyOrder value value) : ReadBack value := by
  induction value using JsonValue.inductionOn with
  | null =>
    intro fuel rest hfuel _
    obtain ⟨fuel, rfl⟩ := exists_fuel hfuel
    exact ⟨.null, rfl, .null⟩
  | bool value =>
    intro fuel rest hfuel _
    obtain ⟨fuel, rfl⟩ := exists_fuel hfuel
    cases value <;> exact ⟨.bool _, rfl, .bool _⟩
  | number value =>
    intro fuel rest hfuel hrest
    obtain ⟨fuel, rfl⟩ := exists_fuel hfuel
    obtain ⟨c, tail, htext, hc⟩ := spellNumber_head value
    have hread := parseNumber_spell value hrest
    rw [text]
    rw [htext, cons_append] at hread ⊢
    rw [parseValue_number hc, hread]
    exact ⟨.number value, rfl, .number value⟩
  | string value =>
    intro fuel rest hfuel _
    obtain ⟨fuel, rfl⟩ := exists_fuel hfuel
    obtain ⟨quoted, hquoted⟩ : ∃ quoted, quote value ++ rest = '"' :: quoted := ⟨_, rfl⟩
    rw [text, hquoted, parseValue, skipSpace_of_head (by decide)]
    simp only [parseUnits_quote hquoted, Option.map_some]
    exact ⟨.string value, rfl, .string value⟩
  | array items ih =>
    refine readBack_array fun item hitem => ih item hitem ?_
    cases hproper with
    | array _ hitems =>
      obtain ⟨index, hindex⟩ := getElem?_of_mem hitem
      exact hitems index item item hindex hindex
  | object members ih =>
    cases hproper with
    | object hdistinct _ hvalues =>
      exact readBack_object hdistinct fun member hmember =>
        ih member hmember (hvalues member.1 member.2 member.2 hmember hmember)

/-- The text of a value is parsed to the value, up to the order of keys. -/
theorem parse_stringify (hproper : SameUpToKeyOrder value value) :
    ∃ read, parse (stringify value) = some read ∧ SameUpToKeyOrder read value := by
  obtain ⟨read, hread, hsame⟩ := readBack hproper ((text value).length + 1) [] (Nat.le_succ _)
    Json.endsNumber_nil
  refine ⟨read, ?_, hsame⟩
  rw [append_nil] at hread
  simp [parse, stringify, hread, skipSpace]

end JsonValue

end Nobie.Foundation
