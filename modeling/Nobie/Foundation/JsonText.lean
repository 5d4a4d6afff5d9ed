/-
# The reader inverts the printer

A printed value is followed by the end of the text or by a delimiter, never by
a character that could extend a number. Under that condition the reader returns
exactly the value printed and leaves what stood behind it, so parsing the text
of a value gives the value back and two values with one text are equal.
-/

import Mathlib.Tactic.IntervalCases
import Nobie.Foundation.Json

namespace Nobie.Foundation.Json

open List

/-! ## Numbers -/

/-- The rest of a text cannot extend a run of digits. -/
def EndsDigits (rest : List Char) : Prop := ∀ c tail, rest = c :: tail → c.isDigit = false

/-- The rest of a text cannot extend a number. -/
def EndsNumber (rest : List Char) : Prop :=
  ∀ c tail, rest = c :: tail → c.isDigit = false ∧ c ≠ '.' ∧ c ≠ 'e' ∧ c ≠ 'E'

variable {rest : List Char} {c : Char} {tail digits : List Char} (n : ℕ) {exponentText : List Char}
  (number : Number) (value : Json) (fuel : ℕ)

theorem EndsNumber.endsDigits (h : EndsNumber rest) : EndsDigits rest :=
  fun c tail hrest => (h c tail hrest).1

theorem endsNumber_nil : EndsNumber [] := by
  intro c tail h
  cases h

theorem endsNumber_cons (h : c.isDigit = false ∧ c ≠ '.' ∧ c ≠ 'e' ∧ c ≠ 'E') :
    EndsNumber (c :: tail) := by
  intro c' tail' heq
  cases heq
  exact h

theorem endsDigits_cons (h : c.isDigit = false) : EndsDigits (c :: tail) := by
  intro c' tail' heq
  cases heq
  exact h

theorem takeWhile_append_of_endsDigits (hdigits : ∀ c ∈ digits, c.isDigit) (hrest : EndsDigits rest)
    :
    (digits ++ rest).takeWhile Char.isDigit = digits ∧
      (digits ++ rest).dropWhile Char.isDigit = rest := by
  induction digits with
  | nil =>
    cases rest with
    | nil => simp
    | cons c tail => simp [hrest c tail rfl]
  | cons c digits ih =>
    have hc : c.isDigit := hdigits c (by simp)
    simpa [hc] using ih fun d hd => hdigits d (by simp [hd])

/-- A nonempty run of digits is read whole. -/
theorem parseDigits_append (hne : digits ≠ []) (hdigits : ∀ c ∈ digits, c.isDigit)
    (hrest : EndsDigits rest) : parseDigits (digits ++ rest) = some (digits, rest) := by
  obtain ⟨htake, hdrop⟩ := takeWhile_append_of_endsDigits hdigits hrest
  unfold parseDigits
  rw [span_eq_takeWhile_dropWhile, htake, hdrop]
  cases digits with
  | nil => exact absurd rfl hne
  | cons c digits => rfl

theorem isDigit_of_mem_toDigits {n : ℕ} :
    ∀ c ∈ Nat.toDigits 10 n, c.isDigit := fun _ hc => Nat.isDigit_of_mem_toDigits (by decide) (by decide) hc

/-- No number is written with a leading zero except zero itself. -/
theorem toDigits_eq_zero_cons {n : ℕ} (h : Nat.toDigits 10 n = '0' :: tail) :
    n = 0 ∧ tail = [] := by
  induction n using Nat.strong_induction_on generalizing tail with
  | _ n ih =>
    by_cases hn : n < 10
    · rw [Nat.toDigits_of_lt_base hn] at h
      interval_cases n <;> simp_all [Nat.digitChar]
    · rw [Nat.toDigits_of_base_le (by decide) (by omega)] at h
      cases hdigits : Nat.toDigits 10 (n / 10) with
      | nil => exact absurd hdigits Nat.toDigits_ne_nil
      | cons c digits =>
        rw [hdigits, cons_append, List.cons.injEq] at h
        obtain ⟨rfl, -⟩ := h
        have := (ih (n / 10) (by omega) hdigits).1
        omega

theorem parseWhole_toDigits (hrest : EndsDigits rest) :
    parseWhole (Nat.toDigits 10 n ++ rest) = some (n, rest) := by
  have hread := parseDigits_append Nat.toDigits_ne_nil (isDigit_of_mem_toDigits (n := n)) hrest
  cases hdigits : Nat.toDigits 10 n with
  | nil => exact absurd hdigits Nat.toDigits_ne_nil
  | cons c digits =>
    by_cases hc : c = '0'
    · subst c
      obtain ⟨rfl, rfl⟩ := toDigits_eq_zero_cons hdigits
      rfl
    · rw [hdigits] at hread
      unfold parseWhole
      split
      · next heq => exact absurd (List.cons.inj heq).1 hc
      · rw [hread, ← hdigits]
        simp

theorem ofNat_digitChar (digit : Fin 10) :
    Fin.ofNat 10 ((Nat.digitChar digit.val).toNat - 48) = digit := by
  revert digit
  decide

theorem parseFraction_print (digits : List (Fin 10)) (hdigits : EndsDigits rest)
    (hpoint : ∀ tail, rest ≠ '.' :: tail) :
    parseFraction (printFraction digits ++ rest) = some (digits, rest) := by
  by_cases hnil : digits = []
  · subst digits
    rw [printFraction, if_pos rfl, nil_append]
    unfold parseFraction
    split
    · next tail => exact absurd rfl (hpoint tail)
    · rfl
  · have hne : (digits.map fun digit : Fin 10 => Nat.digitChar digit.val) ≠ [] := by
      simpa using hnil
    have hread := parseDigits_append hne (by simp) hdigits
    have hback : (fun c : Char => Fin.ofNat 10 (c.toNat - 48)) ∘
        (fun digit : Fin 10 => Nat.digitChar digit.val) = id := by
      funext digit
      exact ofNat_digitChar digit
    rw [printFraction, if_neg hnil, cons_append, parseFraction, hread, Option.map_some]
    dsimp only
    rw [map_map, hback, map_id]

theorem parseExponentValue_of_digit (hc : c.isDigit) :
    parseExponentValue (c :: rest) =
      (parseDigits (c :: rest)).map fun (digits, rest) =>
        ((Nat.ofDigitChars 10 digits 0 : ℤ), rest) := by
  unfold parseExponentValue
  split
  · next heq => cases (List.cons.inj heq).1 ▸ hc
  · next heq => cases (List.cons.inj heq).1 ▸ hc
  · rfl

theorem parseExponent_print (exponent : Option ℤ) (hrest : EndsNumber rest) :
    parseExponent (printExponent exponent ++ rest) = some (exponent, rest) := by
  rcases exponent with _ | (n | n)
  · unfold parseExponent
    split
    · next tail heq => exact absurd rfl (hrest _ tail heq).2.2.1
    · next tail heq => exact absurd rfl (hrest _ tail heq).2.2.2
    · rfl
  · have hread := parseDigits_append Nat.toDigits_ne_nil (isDigit_of_mem_toDigits (n := n))
      hrest.endsDigits
    simp only [printExponent, cons_append, parseExponent]
    cases hdigits : Nat.toDigits 10 n with
    | nil => exact absurd hdigits Nat.toDigits_ne_nil
    | cons c digits =>
      have hc : c.isDigit := isDigit_of_mem_toDigits (n := n) c (hdigits ▸ mem_cons_self)
      rw [hdigits] at hread
      rw [cons_append, parseExponentValue_of_digit hc, ← cons_append, hread, ← hdigits]
      simp
  · have hread := parseDigits_append Nat.toDigits_ne_nil (isDigit_of_mem_toDigits (n := n + 1))
      hrest.endsDigits
    simp only [printExponent, cons_append, parseExponent, parseExponentValue, hread]
    simp [Int.negSucc_eq]

theorem printExponent_endsDigits (exponent : Option ℤ) (hrest : EndsNumber rest) :
    EndsDigits (printExponent exponent ++ rest) ∧
      ∀ tail, printExponent exponent ++ rest ≠ '.' :: tail := by
  rcases exponent with _ | (n | n)
  · exact ⟨hrest.endsDigits, fun tail heq => (hrest _ tail heq).2.1 rfl⟩
  · exact ⟨endsDigits_cons (by decide), fun tail heq => absurd (List.cons.inj heq).1 (by decide)⟩
  · exact ⟨endsDigits_cons (by decide), fun tail heq => absurd (List.cons.inj heq).1 (by decide)⟩

theorem printFraction_endsDigits (digits : List (Fin 10)) (hrest : EndsDigits rest) :
    EndsDigits (printFraction digits ++ rest) := by
  unfold printFraction
  split
  · exact hrest
  · exact endsDigits_cons (by decide)

/-- A magnitude reads back, however its exponent is written. -/
theorem parseMagnitude_text (hdigits : EndsDigits (exponentText ++ rest))
    (hpoint : ∀ tail, exponentText ++ rest ≠ '.' :: tail)
    (hexponent : parseExponent (exponentText ++ rest) = some (number.exponent, rest)) :
    parseMagnitude number.negative
        (Nat.toDigits 10 number.whole ++
          (printFraction number.fraction ++ (exponentText ++ rest))) =
      some (number, rest) := by
  unfold parseMagnitude
  rw [parseWhole_toDigits _ (printFraction_endsDigits _ hdigits)]
  simp only [Option.bind_eq_bind, Option.bind_some]
  rw [parseFraction_print _ hdigits hpoint, Option.bind_some, hexponent, Option.bind_some]

theorem toDigits_head : ∃ c tail, Nat.toDigits 10 n = c :: tail ∧ c.isDigit := by
  cases hdigits : Nat.toDigits 10 n with
  | nil => exact absurd hdigits Nat.toDigits_ne_nil
  | cons c tail => exact ⟨c, tail, rfl, isDigit_of_mem_toDigits (n := n) c (hdigits ▸ mem_cons_self)⟩

/-- A number reads back, however its exponent is written. -/
theorem parseNumber_text (hdigits : EndsDigits (exponentText ++ rest))
    (hpoint : ∀ tail, exponentText ++ rest ≠ '.' :: tail)
    (hexponent : parseExponent (exponentText ++ rest) = some (number.exponent, rest)) :
    parseNumber ((if number.negative then ['-'] else []) ++ Nat.toDigits 10 number.whole ++
        printFraction number.fraction ++ exponentText ++ rest) = some (number, rest) := by
  have hread := parseMagnitude_text number hdigits hpoint hexponent
  cases hnegative : number.negative with
  | true =>
    simpa only [hnegative, if_true, append_assoc, cons_append, nil_append, parseNumber] using hread
  | false =>
    obtain ⟨c, tail, hdigits, hc⟩ := toDigits_head number.whole
    rw [hnegative, hdigits] at hread
    rw [if_neg Bool.false_ne_true, nil_append, hdigits, append_assoc, append_assoc, cons_append]
    rw [cons_append] at hread
    unfold parseNumber
    split
    · next heq => cases (List.cons.inj heq).1 ▸ hc
    · exact hread

theorem parseNumber_print (hrest : EndsNumber rest) :
    parseNumber (printNumber number ++ rest) = some (number, rest) := by
  obtain ⟨hdigits, hpoint⟩ := printExponent_endsDigits number.exponent hrest
  exact parseNumber_text number hdigits hpoint (parseExponent_print _ hrest)

/-! ## Strings -/

theorem hexValue_hexDigit (hn : n < 16) : hexValue (hexDigit n) = some n := by
  interval_cases n <;> rfl

theorem unitChar_of_small {n : ℕ} (hn : n < 32) : unitChar n = Char.ofNat n := by
  unfold unitChar
  rw [if_neg (by omega)]

theorem hexUnit_small {n : ℕ} (hn : n < 32) :
    hexUnit '0' '0' (hexDigit (n / 16)) (hexDigit (n % 16)) = some n := by
  have hzero : hexValue '0' = some 0 := rfl
  simp only [hexUnit, hzero, hexValue_hexDigit _ (show n / 16 < 16 by omega),
    hexValue_hexDigit _ (show n % 16 < 16 by omega), Option.bind_eq_bind, Option.bind_some]
  congr 1
  omega

/-- Below the surrogates an escaped code unit is one character, whatever escape
follows it. -/
theorem parseChars_unit {a b d : Char} {unit : ℕ} (hunit : hexUnit a b c d = some unit)
    (hsmall : unit < 0xD800) (rest : List Char) :
    parseChars ('\\' :: 'u' :: a :: b :: c :: d :: rest) =
      (parseChars rest).map fun (chars, rest) => (unitChar unit :: chars, rest) := by
  have hpair (low : Option ℕ) : low.bind (pairChar unit) = none := by
    cases low with
    | none => rfl
    | some low => exact if_neg (by omega)
  rw [parseChars.eq_def]
  split
  · next heq => simp at heq
  · next heq => simp at heq
  · next heq =>
    obtain ⟨rfl, rfl, rfl, rfl, rfl⟩ := heq
    simp [hunit, hpair]
  · next heq =>
    obtain ⟨rfl, rfl, rfl, rfl, rfl⟩ := heq
    simp [hunit]
  · next hshort heq =>
    obtain ⟨rfl, rfl⟩ := heq
    exact absurd rfl (hshort _ _ _ _ _ rfl)
  · next hplain heq =>
    obtain ⟨hc, htail⟩ := List.cons.inj heq
    exact absurd htail.symm (hplain _ _ hc.symm)

theorem parseChars_plain {c : Char} (hquote : c ≠ '"') (hslash : c ≠ '\\')
    (hcontrol : ¬ c.toNat < 32) (rest : List Char) :
    parseChars (c :: rest) = (parseChars rest).map fun (chars, rest) => (c :: chars, rest) := by
  rw [parseChars.eq_def]
  split <;> simp_all

/-- A character written inside a literal reads back as itself. -/
theorem parseChars_printChar (c : Char) (rest : List Char) :
    parseChars (printChar c ++ rest) =
      (parseChars rest).map fun (chars, rest) => (c :: chars, rest) := by
  unfold printChar
  split_ifs with hquote hslash hnewline hreturn htab hback hfeed hcontrol
  · subst c
    rfl
  · subst c
    rfl
  · subst c
    rfl
  · subst c
    rfl
  · subst c
    rfl
  · have hc : c = Char.ofNat 8 := by rw [← hback, Char.ofNat_toNat]
    subst c
    rfl
  · have hc : c = Char.ofNat 12 := by rw [← hfeed, Char.ofNat_toNat]
    subst c
    rfl
  · have hunit := hexUnit_small hcontrol
    simp only [cons_append, nil_append]
    rw [parseChars_unit hunit (by omega), unitChar_of_small hcontrol, Char.ofNat_toNat]
  · exact parseChars_plain hquote hslash hcontrol rest

theorem parseChars_printChars (chars rest : List Char) :
    parseChars (printChars chars ++ rest) = some (chars, rest) := by
  induction chars with
  | nil => rfl
  | cons c chars ih =>
    rw [printChars, append_assoc, parseChars_printChar, ih]
    rfl

theorem parseString_print (s : String) (rest : List Char) :
    parseString (printChars s.toList ++ rest) = some (s, rest) := by
  simp [parseString, parseChars_printChars]

/-! ## Values -/

/-- What may stand behind a value inside a text: the end or a delimiter. -/
theorem endsNumber_delimiter (h : c = ',' ∨ c = ']' ∨ c = '}') : EndsNumber (c :: tail) := by
  rcases h with rfl | rfl | rfl <;> exact endsNumber_cons (by decide)

theorem endsNumber_printItems (items : List Json) (rest : List Char) :
    EndsNumber (printItems items ++ rest) := by
  cases items with
  | nil | cons => exact endsNumber_delimiter (by simp)

theorem endsNumber_printFields (fields : List (String × Json)) (rest : List Char) :
    EndsNumber (printFields fields ++ rest) := by
  cases fields with
  | nil | cons => exact endsNumber_delimiter (by simp)

/-- The first character of a value, by which the reader knows that the value has
begun and that the array or object around it has not ended. -/
def StartsValue (c : Char) : Prop := isSpace c = false ∧ c ≠ ']' ∧ c ≠ '}'

theorem startsValue_of_isDigit (hc : c.isDigit) : StartsValue c := by
  refine ⟨?_, ?_, ?_⟩
  · simp only [isSpace, Bool.or_eq_false_iff, decide_eq_false_iff_not]
    refine ⟨⟨⟨?_, ?_⟩, ?_⟩, ?_⟩ <;> (rintro rfl; exact absurd hc (by decide))
  · rintro rfl
    cases hc
  · rintro rfl
    cases hc

theorem printNumber_head : ∃ c tail, printNumber number = c :: tail ∧ (c = '-' ∨ c.isDigit) := by
  cases hnegative : number.negative with
  | true => exact ⟨'-', _, by simp [printNumber, hnegative]; rfl, Or.inl rfl⟩
  | false =>
    obtain ⟨c, tail, hdigits, hc⟩ := toDigits_head number.whole
    exact ⟨c, _, by simp [printNumber, hnegative, hdigits]; rfl, Or.inr hc⟩

theorem print_head : ∃ c tail, print value = c :: tail ∧ StartsValue c := by
  cases value with
  | null => exact ⟨'n', _, rfl, by decide, by decide, by decide⟩
  | bool value => cases value <;> exact ⟨_, _, rfl, by decide, by decide, by decide⟩
  | num value =>
    obtain ⟨c, tail, htext, hc⟩ := printNumber_head value
    refine ⟨c, tail, by rw [print, htext], ?_⟩
    rcases hc with rfl | hc
    · exact ⟨by decide, by decide, by decide⟩
    · exact startsValue_of_isDigit hc
  | str value => exact ⟨'"', _, by rw [print, printString], by decide, by decide, by decide⟩
  | arr items => cases items <;> exact ⟨'[', _, by rw [print], by decide, by decide, by decide⟩
  | obj fields =>
    rcases fields with _ | ⟨⟨key, value⟩, fields⟩ <;>
      exact ⟨'{', _, by rw [print], by decide, by decide, by decide⟩

theorem skipSpace_of_head (hc : isSpace c = false) : skipSpace (c :: tail) = c :: tail := by
  simp [skipSpace, hc]

/-- A number does not begin like another value. -/
theorem numberHead_ne {c d : Char} (hc : c = '-' ∨ c.isDigit)
    (hd : d ≠ '-' ∧ d.isDigit = false) : c ≠ d := by
  rintro rfl
  rcases hc with hdash | hdigit
  · exact hd.1 hdash
  · exact absurd hdigit (by simp [hd.2])

theorem isSpace_numberHead (hc : c = '-' ∨ c.isDigit) : isSpace c = false := by
  have hne (d : Char) := @numberHead_ne c d hc
  simp [isSpace, hne ' ' (by decide), hne '\n' (by decide), hne '\r' (by decide),
    hne '\t' (by decide)]

/-- A text that begins like a number is read as one. -/
theorem parseValue_number (hc : c = '-' ∨ c.isDigit) (fuel : ℕ) (tail : List Char) :
    parseValue (fuel + 1) (c :: tail) =
      (parseNumber (c :: tail)).map fun (number, rest) => (.num number, rest) := by
  have hne (d : Char) := @numberHead_ne c d hc
  rw [parseValue, skipSpace_of_head (isSpace_numberHead hc)]
  split
  · next heq => exact absurd (List.cons.inj heq).1 (hne 'n' (by decide))
  · next heq => exact absurd (List.cons.inj heq).1 (hne 't' (by decide))
  · next heq => exact absurd (List.cons.inj heq).1 (hne 'f' (by decide))
  · next heq => exact absurd (List.cons.inj heq).1 (hne '"' (by decide))
  · next heq => exact absurd (List.cons.inj heq).1 (hne '[' (by decide))
  · next heq => exact absurd (List.cons.inj heq).1 (hne '{' (by decide))
  · rfl

/-- An array whose text does not end at once is read item by item. -/
theorem parseValue_items (hc : StartsValue c) (fuel : ℕ) (tail : List Char) :
    parseValue (fuel + 1) ('[' :: c :: tail) =
      (parseItems fuel (c :: tail)).map fun (items, rest) => (.arr items, rest) := by
  rw [parseValue, skipSpace_of_head (by decide)]
  simp only
  rw [skipSpace_of_head hc.1]
  split
  · next heq => exact absurd (List.cons.inj heq).1 hc.2.1
  · rfl

/-- An object that has a member is read member by member. -/
theorem parseValue_fields (tail : List Char) :
    parseValue (fuel + 1) ('{' :: '"' :: tail) =
      (parseFields fuel ('"' :: tail)).map fun (fields, rest) => (.obj fields, rest) := rfl

mutual

/-- The fuel the reader spends on the text of a value. -/
def cost : Json → ℕ
  | .null | .bool _ | .num _ | .str _ => 1
  | .arr [] => 1
  | .arr (item :: items) => 2 + cost item + costItems items
  | .obj [] => 1
  | .obj ((_, value) :: fields) => 2 + cost value + costFields fields

def costItems : List Json → ℕ
  | [] => 0
  | item :: items => 1 + cost item + costItems items

def costFields : List (String × Json) → ℕ
  | [] => 0
  | (_, value) :: fields => 1 + cost value + costFields fields

end

/-- With this much fuel every value that costs no more is read back, whatever
delimiter follows it. -/
def ReadsValues (fuel : ℕ) : Prop :=
  ∀ (value : Json) (rest : List Char), cost value ≤ fuel → EndsNumber rest →
    parseValue fuel (print value ++ rest) = some (value, rest)

def ReadsItems (fuel : ℕ) : Prop :=
  ∀ (item : Json) (items : List Json) (rest : List Char),
    1 + cost item + costItems items ≤ fuel →
    parseItems fuel (print item ++ (printItems items ++ rest)) = some (item :: items, rest)

def ReadsFields (fuel : ℕ) : Prop :=
  ∀ (key : String) (value : Json) (fields : List (String × Json)) (rest : List Char),
    1 + cost value + costFields fields ≤ fuel →
    parseFields fuel (printString key ++ ':' :: (print value ++ (printFields fields ++ rest))) =
      some ((key, value) :: fields, rest)

theorem readsValues_succ {fuel : ℕ} (hitems : ReadsItems fuel) (hfields : ReadsFields fuel) :
    ReadsValues (fuel + 1) := by
  intro value rest hfuel hrest
  rcases value with _ | (_ | _) | number | s | (_ | ⟨item, items⟩) | (_ | ⟨⟨key, value⟩, fields⟩)
  · rfl
  · rfl
  · rfl
  · obtain ⟨c, tail, htext, hc⟩ := printNumber_head number
    have hread := parseNumber_print number hrest
    rw [print]
    rw [htext, cons_append] at hread ⊢
    rw [parseValue_number hc, hread]
    rfl
  · rw [print, printString, cons_append, parseValue, skipSpace_of_head (by decide)]
    simp [parseString_print]
  · rfl
  · obtain ⟨c, tail, htext, hc⟩ := print_head item
    have hread := hitems item items rest (by simp only [cost] at hfuel; omega)
    rw [print, cons_append, append_assoc]
    rw [htext, cons_append] at hread ⊢
    rw [parseValue_items hc, hread]
    rfl
  · rfl
  · have hread := hfields key value fields rest (by simp only [cost] at hfuel; omega)
    rw [print]
    simp only [printString, cons_append, append_assoc] at hread ⊢
    rw [parseValue_fields, hread]
    rfl

theorem readsItems_succ {fuel : ℕ} (hvalues : ReadsValues fuel) (hitems : ReadsItems fuel) :
    ReadsItems (fuel + 1) := by
  intro item items rest hfuel
  have hitem := hvalues item (printItems items ++ rest) (by omega)
    (endsNumber_printItems items rest)
  rw [parseItems, hitem]
  cases items with
  | nil => rfl
  | cons next items =>
    have hnext := hitems next items rest (by simp only [costItems] at hfuel; omega)
    simp only [printItems, cons_append, append_assoc]
    rw [skipSpace_of_head (by decide)]
    simp only [hnext, Option.map_some]

theorem readsFields_succ {fuel : ℕ} (hvalues : ReadsValues fuel) (hfields : ReadsFields fuel) :
    ReadsFields (fuel + 1) := by
  intro key value fields rest hfuel
  have hvalue := hvalues value (printFields fields ++ rest) (by omega)
    (endsNumber_printFields fields rest)
  rw [parseFields, printString, cons_append, skipSpace_of_head (by decide)]
  simp only [parseString_print, skipSpace_of_head (show isSpace ':' = false by decide), hvalue]
  rcases fields with _ | ⟨⟨nextKey, next⟩, fields⟩
  · rfl
  · have hnext := hfields nextKey next fields rest (by simp only [costFields] at hfuel; omega)
    simp only [printFields, cons_append, append_assoc]
    rw [skipSpace_of_head (by decide)]
    simp only [hnext, Option.map_some]

theorem cost_pos : 0 < cost value := by
  rcases value with _ | _ | _ | _ | (_ | _) | (_ | ⟨⟨_, _⟩, _⟩) <;> simp only [cost] <;> omega

/-- The three readers undo the three printers together: each one's step calls
the others with one unit of fuel less. -/
theorem reads_print : ReadsValues fuel ∧ ReadsItems fuel ∧ ReadsFields fuel := by
  induction fuel with
  | zero =>
    refine ⟨fun value rest h => ?_, fun item items rest h => ?_, fun key value fields rest h => ?_⟩
    · have := cost_pos value
      omega
    · omega
    · omega
  | succ fuel ih =>
    obtain ⟨hvalues, hitems, hfields⟩ := ih
    exact ⟨readsValues_succ hitems hfields, readsItems_succ hvalues hitems,
      readsFields_succ hvalues hfields⟩

/-! ## Whole texts -/

mutual

/-- A value costs no more fuel than it has characters. -/
theorem cost_le_length : ∀ value : Json, cost value ≤ (print value).length
  | .null => by decide
  | .bool true => by decide
  | .bool false => by decide
  | .num value => by
    obtain ⟨c, tail, htext, -⟩ := printNumber_head value
    simp [cost, print, htext]
  | .str value => by simp [cost, print, printString]
  | .arr [] => by simp [cost, print]
  | .arr (item :: items) => by
    have hitem := cost_le_length item
    have hitems := costItems_lt_length items
    simp only [cost, print, length_cons, length_append]
    omega
  | .obj [] => by simp [cost, print]
  | .obj ((key, value) :: fields) => by
    have hvalue := cost_le_length value
    have hfields := costFields_lt_length fields
    simp only [cost, print, printString, length_cons, length_append]
    omega

theorem costItems_lt_length : ∀ items : List Json, costItems items < (printItems items).length
  | [] => by decide
  | item :: items => by
    have hitem := cost_le_length item
    have hitems := costItems_lt_length items
    simp only [costItems, printItems, length_cons, length_append]
    omega

theorem costFields_lt_length :
    ∀ fields : List (String × Json), costFields fields < (printFields fields).length
  | [] => by decide
  | (key, value) :: fields => by
    have hvalue := cost_le_length value
    have hfields := costFields_lt_length fields
    simp only [costFields, printFields, length_cons, length_append]
    omega

end

/-- Parsing the text of a value gives the value. -/
@[simp]
theorem parse_stringify : parse (stringify value) = some value := by
  have hfuel : cost value ≤ (print value).length + 1 := by
    have := cost_le_length value
    omega
  have hread := (reads_print _).1 value [] hfuel endsNumber_nil
  rw [append_nil] at hread
  simp [parse, stringify, hread, skipSpace]

end Nobie.Foundation.Json
