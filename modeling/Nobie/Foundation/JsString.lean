/-
# Strings of JavaScript

A string of the host is a sequence of 16-bit code units, and surrogates need not stand in
pairs. Keys are sorted by their code units. `JSON.stringify` writes a string code point by
code point; a surrogate without its partner is written as an escape, so the text it gives
is one of characters. Different strings have different texts, whatever stands behind them.
-/

import Mathlib.Data.List.DropRight
import Mathlib.Data.List.Lex
import Mathlib.Order.Fin.Basic
import Nobie.Foundation.JsonText

namespace Nobie.Foundation

open List

abbrev CodeUnit : Type := Fin 0x10000

abbrev JsString : Type := List CodeUnit

abbrev CodePoint : Type := Fin 0x110000

variable {text : JsString} {unit : CodeUnit} {first second : JsString} {rest others : List Char}

variable (point : CodePoint)

namespace JsString

/-- The code unit of a number. -/
def codeUnit (value : ℕ) : CodeUnit := Fin.ofNat 0x10000 value

/-- The code point of a number. -/
def codePoint (value : ℕ) : CodePoint := Fin.ofNat 0x110000 value

/-- White space and line terminators. -/
def isSpace (unit : CodeUnit) : Bool :=
  (0x9 ≤ unit.val && unit.val ≤ 0xD) || unit.val == 0x20 || unit.val == 0xA0 ||
    unit.val == 0x1680 || (0x2000 ≤ unit.val && unit.val ≤ 0x200A) || unit.val == 0x2028 ||
    unit.val == 0x2029 || unit.val == 0x202F || unit.val == 0x205F || unit.val == 0x3000 ||
    unit.val == 0xFEFF

/-- `String.prototype.trim`. -/
def trim (text : JsString) : JsString := (text.dropWhile isSpace).rdropWhile isSpace

/-- A blank string has nothing but white space. -/
theorem trim_eq_nil : trim text = [] ↔ ∀ unit ∈ text, isSpace unit := by
  unfold trim
  rw [rdropWhile_eq_nil_iff]
  constructor
  · intro hblank unit hunit
    rw [← takeWhile_append_dropWhile (p := isSpace) (l := text)] at hunit
    obtain hfront | hrest := mem_append.mp hunit
    · exact mem_takeWhile_imp hfront
    · exact hblank unit hrest
  · intro hblank unit hunit
    exact hblank unit ((dropWhile_suffix isSpace).subset hunit)

/-- The number of a key that is a canonical array index. -/
def arrayIndex? (key : JsString) : Option ℕ :=
  let digits := key.map fun unit => unit.val
  if digits ≠ [] ∧ (∀ digit ∈ digits, 48 ≤ digit ∧ digit ≤ 57) ∧
      (digits = [48] ∨ digits.head? ≠ some 48) then
    some (digits.foldl (fun total digit => 10 * total + (digit - 48)) 0) |>.filter (· < 2 ^ 32 - 1)
  else
    none

/-! ## Code points -/

def isHighSurrogate (unit : CodeUnit) : Prop := 0xD800 ≤ unit.val ∧ unit.val < 0xDC00

def isLowSurrogate (unit : CodeUnit) : Prop := 0xDC00 ≤ unit.val ∧ unit.val < 0xE000

instance : DecidablePred isHighSurrogate := fun _ => inferInstanceAs (Decidable (_ ∧ _))

instance : DecidablePred isLowSurrogate := fun _ => inferInstanceAs (Decidable (_ ∧ _))

/-- The code point of a pair of surrogates. -/
def pairPoint (high low : CodeUnit) : CodePoint :=
  Fin.ofNat 0x110000 (0x10000 + (high.val - 0xD800) * 0x400 + (low.val - 0xDC00))

def unitPoint (unit : CodeUnit) : CodePoint := Fin.castLE (by decide) unit

/-- `StringToCodePoints`: a surrogate without its partner is a code point of its own. -/
def codePoints : JsString → List CodePoint
  | [] => []
  | [unit] => [unitPoint unit]
  | unit :: next :: rest =>
    if isHighSurrogate unit ∧ isLowSurrogate next then pairPoint unit next :: codePoints rest
    else unitPoint unit :: codePoints (next :: rest)

/-- The code units of a code point. -/
def pointUnits : JsString :=
  if point.val < 0x10000 then [Fin.ofNat 0x10000 point.val]
  else
    [Fin.ofNat 0x10000 (0xD800 + (point.val - 0x10000) / 0x400),
      Fin.ofNat 0x10000 (0xDC00 + (point.val - 0x10000) % 0x400)]

/-- The code units of a text. -/
def ofString (text : String) : JsString :=
  text.toList.flatMap fun c => pointUnits (Fin.ofNat 0x110000 c.toNat)

theorem pointUnits_unitPoint (unit : CodeUnit) : pointUnits (unitPoint unit) = [unit] := by
  have hval : (unitPoint unit).val = unit.val := rfl
  rw [pointUnits, hval, if_pos unit.isLt]
  exact congrArg (fun found => [found]) (Fin.ext (Nat.mod_eq_of_lt unit.isLt))

theorem pointUnits_pairPoint {high low : CodeUnit} (hhigh : isHighSurrogate high)
    (hlow : isLowSurrogate low) : pointUnits (pairPoint high low) = [high, low] := by
  obtain ⟨hhighFirst, hhighLast⟩ := hhigh
  obtain ⟨hlowFirst, hlowLast⟩ := hlow
  have hval : (pairPoint high low).val =
      0x10000 + (high.val - 0xD800) * 0x400 + (low.val - 0xDC00) :=
    Nat.mod_eq_of_lt (by omega)
  have hfirst : Fin.ofNat 0x10000 (0xD800 + ((pairPoint high low).val - 0x10000) / 0x400) = high :=
    Fin.ext ((Nat.mod_eq_of_lt (by omega)).trans (by omega))
  have hsecond : Fin.ofNat 0x10000 (0xDC00 + ((pairPoint high low).val - 0x10000) % 0x400) = low :=
    Fin.ext ((Nat.mod_eq_of_lt (by omega)).trans (by omega))
  rw [pointUnits, if_neg (by omega), hfirst, hsecond]

/-- The code points of a string have its code units. -/
theorem flatMap_pointUnits (text : JsString) : (codePoints text).flatMap pointUnits = text := by
  fun_induction codePoints text with
  | case1 => rfl
  | case2 unit => rw [flatMap_singleton, pointUnits_unitPoint]
  | case3 unit next rest hpair ih =>
    rw [flatMap_cons, ih, pointUnits_pairPoint hpair.1 hpair.2]
    rfl
  | case4 unit next rest _ ih =>
    rw [flatMap_cons, ih, pointUnits_unitPoint]
    rfl

theorem codePoints_injective : Function.Injective codePoints := by
  intro first second hsame
  rw [← flatMap_pointUnits first, hsame, flatMap_pointUnits]

/-! ## Well-formed texts -/

def isSurrogate : Prop := 0xD800 ≤ point.val ∧ point.val < 0xE000

instance : DecidablePred isSurrogate := fun _ => inferInstanceAs (Decidable (_ ∧ _))

/-- `String.prototype.toWellFormed`, which is also what is left of a text in UTF-8: a
surrogate without its partner is replaced. -/
def toWellFormed (text : JsString) : JsString :=
  (codePoints text).flatMap fun point => if isSurrogate point then [0xFFFD] else pointUnits point

/-- A code unit that is no surrogate stands for itself. -/
def isPlain (unit : CodeUnit) : Prop := ¬ isHighSurrogate unit ∧ ¬ isLowSurrogate unit

instance : DecidablePred isPlain := fun _ => inferInstanceAs (Decidable (_ ∧ _))

section

variable (hunit : isPlain unit)
include hunit

theorem codePoints_cons (rest : JsString) :
    codePoints (unit :: rest) = unitPoint unit :: codePoints rest := by
  cases rest with
  | nil => rfl
  | cons next rest => rw [codePoints, if_neg fun hpair => hunit.1 hpair.1]

theorem codePoints_append_cons (text rest : JsString) :
    codePoints (text ++ unit :: rest) = codePoints text ++ unitPoint unit :: codePoints rest := by
  fun_induction codePoints text with
  | case1 => exact codePoints_cons hunit rest
  | case2 last =>
    rw [singleton_append, codePoints, if_neg fun hpair => hunit.2 hpair.2, codePoints_cons hunit]
    rfl
  | case3 high low text hpair ih =>
    rw [cons_append, cons_append, codePoints, if_pos hpair, ih, cons_append]
  | case4 first next text hpair ih =>
    rw [cons_append, cons_append, codePoints, if_neg hpair, ← cons_append, ih, cons_append]

theorem not_isSurrogate_unitPoint : ¬ isSurrogate (unitPoint unit) := by
  have hval : (unitPoint unit).val = unit.val := rfl
  obtain ⟨hhigh, hlow⟩ := hunit
  unfold isHighSurrogate at hhigh
  unfold isLowSurrogate at hlow
  unfold isSurrogate
  omega

/-- Both sides of a plain unit are made well-formed on their own. -/
theorem toWellFormed_append_cons (text rest : JsString) :
    toWellFormed (text ++ unit :: rest) = toWellFormed text ++ unit :: toWellFormed rest := by
  unfold toWellFormed
  rw [codePoints_append_cons hunit, flatMap_append, flatMap_cons,
    if_neg (not_isSurrogate_unitPoint hunit), pointUnits_unitPoint, singleton_append]

end

theorem toWellFormed_of_plain (htext : ∀ unit ∈ text, isPlain unit) : toWellFormed text = text := by
  induction text with
  | nil => rfl
  | cons unit rest ih =>
    obtain ⟨hunit, hrest⟩ := forall_mem_cons.mp htext
    calc
      toWellFormed ([] ++ unit :: rest) = toWellFormed [] ++ unit :: toWellFormed rest :=
        toWellFormed_append_cons hunit [] rest
      _ = unit :: rest := by
        rw [ih hrest]
        rfl

/-- Nothing but the replacement character is new in a text that is made well-formed. -/
theorem mem_of_mem_toWellFormed (hunit : unit ≠ 0xFFFD) (hmem : unit ∈ toWellFormed text) :
    unit ∈ text := by
  obtain ⟨point, hpoint, hmem⟩ := mem_flatMap.mp hmem
  split_ifs at hmem with hsurrogate
  · exact absurd (mem_singleton.mp hmem) hunit
  · rw [← flatMap_pointUnits text]
    exact mem_flatMap_of_mem hpoint hmem

/-- The units of a text of characters below the surrogates are its characters. -/
theorem exists_char_of_mem_ofString {text : String} (htext : ∀ c ∈ text.toList, c.toNat < 0xD800)
    (hunit : unit ∈ ofString text) : ∃ c ∈ text.toList, unit.val = c.toNat := by
  obtain ⟨c, hc, hmem⟩ := mem_flatMap.mp hunit
  have hbound := htext c hc
  have hval : (Fin.ofNat 0x110000 c.toNat).val = c.toNat := Nat.mod_eq_of_lt (by omega)
  rw [pointUnits, hval, if_pos (by omega)] at hmem
  obtain rfl := mem_singleton.mp hmem
  exact ⟨c, hc, Nat.mod_eq_of_lt (by omega)⟩

theorem isPlain_of_lt (hunit : unit.val < 0xD800) : isPlain unit :=
  ⟨fun hhigh => absurd hhigh.1 (by omega), fun hlow => absurd hlow.1 (by omega)⟩

/-! ## Joined texts -/

/-- `Array.prototype.join`. -/
def joinWith (separator : CodeUnit) : List JsString → JsString
  | [] => []
  | [part] => part
  | part :: next :: rest => part ++ separator :: joinWith separator (next :: rest)

section Joined

variable {separator : CodeUnit}

theorem joinWith_append_singleton {parts : List JsString} (hparts : parts ≠ []) (last : JsString) :
    joinWith separator (parts ++ [last]) = joinWith separator parts ++ separator :: last := by
  induction parts with
  | nil => exact absurd rfl hparts
  | cons part rest ih =>
    cases rest with
    | nil => rfl
    | cons next rest =>
      have hrest := ih (cons_ne_nil next rest)
      rw [cons_append] at hrest
      rw [cons_append, cons_append, joinWith, joinWith, hrest, append_assoc, cons_append]

theorem toWellFormed_joinWith (hseparator : isPlain separator) (parts : List JsString) :
    toWellFormed (joinWith separator parts) = joinWith separator (parts.map toWellFormed) := by
  induction parts with
  | nil => rfl
  | cons part rest ih =>
    cases rest with
    | nil => rfl
    | cons next rest =>
      rw [joinWith, toWellFormed_append_cons hseparator, ih]
      rfl

/-- The first separator ends the same front. -/
theorem append_cons_cancel {A : Type} {separator : A} {first second rest others : List A}
    (hfirst : separator ∉ first) (hsecond : separator ∉ second)
    (hsame : first ++ separator :: rest = second ++ separator :: others) :
    first = second ∧ rest = others := by
  induction first generalizing second with
  | nil =>
    cases second with
    | nil => exact ⟨rfl, (List.cons.inj hsame).2⟩
    | cons unit second => exact absurd ((List.cons.inj hsame).1 ▸ mem_cons_self) hsecond
  | cons unit first ih =>
    cases second with
    | nil => exact absurd ((List.cons.inj hsame).1 ▸ mem_cons_self) hfirst
    | cons other second =>
      obtain ⟨rfl, htail⟩ := List.cons.inj hsame
      obtain ⟨rfl, hrest⟩ := ih (not_mem_of_not_mem_cons hfirst)
        (not_mem_of_not_mem_cons hsecond) htail
      exact ⟨rfl, hrest⟩

/-- The last separator begins the same end. -/
theorem append_cons_cancel_right {rest others : JsString} (hrest : separator ∉ rest)
    (hothers : separator ∉ others)
    (hsame : first ++ separator :: rest = second ++ separator :: others) :
    first = second ∧ rest = others := by
  have hreverse := congrArg List.reverse hsame
  rw [reverse_append, reverse_append, reverse_cons, reverse_cons,
    append_assoc, append_assoc, singleton_append, singleton_append] at hreverse
  obtain ⟨hends, hfronts⟩ := append_cons_cancel (fun hmem => hrest (mem_reverse.mp hmem))
    (fun hmem => hothers (mem_reverse.mp hmem)) hreverse
  exact ⟨reverse_injective hfronts, reverse_injective hends⟩

/-- As many parts without the separator are told apart once they are joined. -/
theorem eq_of_joinWith_eq {first second : List JsString} (hlength : first.length = second.length)
    (hfirst : ∀ part ∈ first, separator ∉ part) (hsecond : ∀ part ∈ second, separator ∉ part)
    (hsame : joinWith separator first = joinWith separator second) : first = second := by
  induction first generalizing second with
  | nil => exact (length_eq_zero_iff.mp hlength.symm).symm
  | cons part first ih =>
    cases second with
    | nil => cases hlength
    | cons other second =>
      obtain ⟨hpart, hparts⟩ := forall_mem_cons.mp hfirst
      obtain ⟨hother, hothers⟩ := forall_mem_cons.mp hsecond
      have hrest := Nat.succ.inj hlength
      cases first with
      | nil =>
        obtain rfl := length_eq_zero_iff.mp hrest.symm
        exact congrArg (fun part => [part]) hsame
      | cons next first =>
        cases second with
        | nil => cases hrest
        | cons following second =>
          obtain ⟨rfl, htail⟩ := append_cons_cancel hpart hother hsame
          rw [ih hrest hparts hothers htail]

end Joined

/-! ## Quoting -/

/-- `UnicodeEscape`. -/
def unicodeEscape (n : ℕ) : List Char :=
  ['\\', 'u', Json.hexDigit (n / 4096), Json.hexDigit (n / 256 % 16), Json.hexDigit (n / 16 % 16),
    Json.hexDigit (n % 16)]

/-- One code point inside a string literal. -/
def quotePoint : List Char :=
  if isSurrogate point then unicodeEscape point.val else Json.printChar (Char.ofNat point.val)

/-- `QuoteJSONString`. -/
def quote (text : JsString) : List Char := '"' :: ((codePoints text).flatMap quotePoint ++ ['"'])

/-- The code point a literal begins with, and what stands behind it. -/
def readPoint : List Char → Option (ℕ × List Char)
  | '"' :: _ => none
  | '\\' :: 'u' :: a :: b :: c :: d :: rest => (Json.hexUnit a b c d).map (·, rest)
  | '\\' :: letter :: rest => (Json.escapeChar letter).map fun c => (c.toNat, rest)
  | c :: rest => some (c.toNat, rest)
  | [] => none

theorem hexUnit_digits {n : ℕ} (hn : n < 0x10000) :
    Json.hexUnit (Json.hexDigit (n / 4096)) (Json.hexDigit (n / 256 % 16))
      (Json.hexDigit (n / 16 % 16)) (Json.hexDigit (n % 16)) = some n := by
  simp only [Json.hexUnit, Json.hexValue_hexDigit _ (show n / 4096 < 16 by omega),
    Json.hexValue_hexDigit _ (show n / 256 % 16 < 16 by omega),
    Json.hexValue_hexDigit _ (show n / 16 % 16 < 16 by omega),
    Json.hexValue_hexDigit _ (show n % 16 < 16 by omega), Option.bind_eq_bind, Option.bind_some]
  exact congrArg some (by omega)

theorem readPoint_printChar (c : Char) (rest : List Char) :
    readPoint (Json.printChar c ++ rest) = some (c.toNat, rest) := by
  unfold Json.printChar
  split_ifs with hquote hslash hnewline hreturn htab hback hfeed hcontrol
  · rw [hquote]
    rfl
  · rw [hslash]
    rfl
  · rw [hnewline]
    rfl
  · rw [hreturn]
    rfl
  · rw [htab]
    rfl
  · rw [hback]
    rfl
  · rw [hfeed]
    rfl
  · exact congrArg (Option.map (·, rest)) (Json.hexUnit_small hcontrol)
  · rw [singleton_append, readPoint.eq_def]
    split <;> simp_all

/-- A code point that is no surrogate is a character. -/
theorem toNat_ofNat_of_not_surrogate {point : CodePoint} (hsurrogate : ¬ isSurrogate point) :
    (Char.ofNat point.val).toNat = point.val := by
  have hvalid : point.val.isValidChar := by
    unfold isSurrogate at hsurrogate
    have hbound := point.isLt
    exact (Nat.lt_or_ge point.val 0xD800).imp id fun hlarge => ⟨by omega, by omega⟩
  rw [Char.ofNat, dif_pos hvalid]
  rfl

/-- A quoted code point reads back as itself. -/
theorem readPoint_quotePoint (rest : List Char) :
    readPoint (quotePoint point ++ rest) = some (point.val, rest) := by
  unfold quotePoint
  split_ifs with hsurrogate
  · have hread : readPoint (unicodeEscape point.val ++ rest) =
        (Json.hexUnit (Json.hexDigit (point.val / 4096)) (Json.hexDigit (point.val / 256 % 16))
          (Json.hexDigit (point.val / 16 % 16)) (Json.hexDigit (point.val % 16))).map (·, rest) :=
      rfl
    rw [hread, hexUnit_digits (hsurrogate.2.trans (by decide))]
    rfl
  · rw [readPoint_printChar, toNat_ofNat_of_not_surrogate hsurrogate]

theorem quotePoints_append {first second : List CodePoint}
    (hsame : first.flatMap quotePoint ++ '"' :: rest = second.flatMap quotePoint ++ '"' :: others) :
    first = second ∧ rest = others := by
  have hend (tail : List Char) : readPoint ('"' :: tail) = none := rfl
  induction first generalizing second with
  | nil =>
    cases second with
    | nil => exact ⟨rfl, (List.cons.inj hsame).2⟩
    | cons point points =>
      have hread := congrArg readPoint hsame
      rw [flatMap_cons, append_assoc, readPoint_quotePoint] at hread
      cases hread
  | cons point points ih =>
    have hread := congrArg readPoint hsame
    rw [flatMap_cons, append_assoc, readPoint_quotePoint] at hread
    cases second with
    | nil => cases hread
    | cons other points =>
      rw [flatMap_cons, append_assoc, readPoint_quotePoint] at hread
      obtain ⟨hpoint, htail⟩ := Prod.mk.inj (Option.some.inj hread)
      obtain ⟨hpoints, hrest⟩ := ih htail
      rw [Fin.ext hpoint, hpoints]
      exact ⟨rfl, hrest⟩

/-- A quoted string can be told from every other, whatever stands behind it. -/
theorem quote_append (hsame : quote first ++ rest = quote second ++ others) :
    first = second ∧ rest = others := by
  unfold quote at hsame
  rw [cons_append, cons_append, append_assoc, append_assoc] at hsame
  obtain ⟨hpoints, hrest⟩ := quotePoints_append (List.cons.inj hsame).2
  exact ⟨codePoints_injective hpoints, hrest⟩

/-! ## Trimming -/

theorem isInfix_trim (text : JsString) : trim text <:+: text :=
  ((List.rdropWhile_prefix _ _).isInfix).trans (dropWhile_suffix _).isInfix

theorem dropWhile_trim (text : JsString) : (trim text).dropWhile isSpace = trim text := by
  refine dropWhile_eq_self_iff.mpr fun hlength => ?_
  have hbegins : trim text <+: text.dropWhile isSpace := rdropWhile_prefix _ _
  rw [hbegins.getElem hlength]
  exact dropWhile_get_zero_not _ _ (hbegins.length_le.trans_lt' hlength)

theorem trim_trim (text : JsString) : trim (trim text) = trim text := by
  rw [trim, dropWhile_trim, trim, rdropWhile_idempotent]

/-- White space is all that is taken away. -/
theorem exists_trimmed_parts (text : JsString) :
    ∃ front back, text = front ++ (trim text ++ back) ∧
      ∀ unit, unit ∈ front ∨ unit ∈ back → isSpace unit := by
  refine ⟨text.takeWhile isSpace, (text.dropWhile isSpace).rtakeWhile isSpace, ?_, ?_⟩
  · rw [trim, rdropWhile_append_rtakeWhile, takeWhile_append_dropWhile]
  · rintro unit (hfront | hback)
    · exact mem_takeWhile_imp hfront
    · exact mem_rtakeWhile_imp hback

/-- What is no white space is not taken away. -/
theorem mem_trim {unit : CodeUnit} {text : JsString} (hspace : isSpace unit = false)
    (hunit : unit ∈ text) : unit ∈ trim text := by
  obtain ⟨front, back, hparts, houtside⟩ := exists_trimmed_parts text
  by_contra hnot
  rw [hparts, mem_append, mem_append] at hunit
  rw [houtside unit (by tauto)] at hspace
  cases hspace

theorem trim_of_forall {text : JsString} (htext : ∀ unit ∈ text, isSpace unit = false) :
    trim text = text := by
  have hdrop : text.dropWhile isSpace = text := by
    cases text with
    | nil => rfl
    | cons unit rest =>
      refine dropWhile_cons_of_neg ?_
      rw [htext unit mem_cons_self]
      exact Bool.false_ne_true
  rw [trim, hdrop, rdropWhile_eq_self_iff]
  intro hne hlast
  rw [htext _ (getLast_mem hne)] at hlast
  cases hlast

end JsString

/-! ## Pieces of a text -/

section

variable {A : Type} {text piece : List A}

theorem not_of_mem_splitOnP {cuts : A → Bool} (h : piece ∈ text.splitOnP cuts) :
    ∀ unit ∈ piece, cuts unit = false := by
  induction text generalizing piece with
  | nil =>
    rw [splitOnP_nil] at h
    rw [mem_singleton.mp h]
    exact forall_mem_nil _
  | cons unit text ih =>
    rw [splitOnP_cons_eq_if_modifyHead] at h
    split_ifs at h with hunit
    · obtain rfl | hrest := mem_cons.mp h
      · exact forall_mem_nil _
      · exact ih hrest
    · obtain ⟨first, rest, hsplit⟩ := exists_cons_of_ne_nil (splitOnP_ne_nil cuts text)
      rw [hsplit, modifyHead_cons] at h
      rw [hsplit] at ih
      obtain rfl | hrest := mem_cons.mp h
      · exact forall_mem_cons.mpr ⟨Bool.not_eq_true _ ▸ hunit, ih mem_cons_self⟩
      · exact ih (mem_cons_of_mem _ hrest)

theorem not_mem_of_mem_splitOn [BEq A] [LawfulBEq A] {separator : A}
    (h : piece ∈ text.splitOn separator) : separator ∉ piece := by
  intro hmem
  rw [splitOn_eq_splitOnP] at h
  exact beq_eq_false_iff_ne.mp (not_of_mem_splitOnP h separator hmem) rfl

end

end Nobie.Foundation
