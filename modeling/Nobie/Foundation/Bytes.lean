/-
# Byte strings: UTF-8 text and base64

Texts travel as bytes and come back as texts. A decoder never fails: bytes that
are no UTF-8 text read as replacement characters. What matters to the rest is
that the bytes of a text decode to that text, and that the standard base64
decoder, given four characters for every three bytes, returns the bytes.
-/

import Mathlib.Data.List.Basic
import Mathlib.Data.List.DropRight

namespace Nobie.Foundation

/-! ## UTF-8 -/

/-- The UTF-8 bytes of a text. -/
def utf8Bytes (text : String) : List UInt8 := text.toByteArray.data.toList

/-- What a lead byte asks for: the continuation bytes that follow, the range of
the first of them and the bits the lead byte contributes. -/
def utf8Lead (byte : UInt8) : Option (ℕ × ℕ × ℕ × ℕ) :=
  let n := byte.toNat
  if 0xC2 ≤ n ∧ n ≤ 0xDF then some (1, 0x80, 0xBF, n - 0xC0)
  else if n = 0xE0 then some (2, 0xA0, 0xBF, 0)
  else if n = 0xED then some (2, 0x80, 0x9F, 0xD)
  else if 0xE1 ≤ n ∧ n ≤ 0xEF then some (2, 0x80, 0xBF, n - 0xE0)
  else if n = 0xF0 then some (3, 0x90, 0xBF, 0)
  else if 0xF1 ≤ n ∧ n ≤ 0xF3 then some (3, 0x80, 0xBF, n - 0xF0)
  else if n = 0xF4 then some (3, 0x80, 0x8F, 4)
  else none

/-- A byte where a character has to begin, with the sequence it leaves open. -/
def utf8Start (byte : UInt8) : List Char × Option (ℕ × ℕ × ℕ × ℕ) :=
  if byte.toNat < 0x80 then ([Char.ofNat byte.toNat], none)
  else match utf8Lead byte with
    | some pending => ([], some pending)
    | none => ([Char.ofNat 0xFFFD], none)

/-- The decoder that replaces every ill-formed sequence. -/
def decodeLossy : Option (ℕ × ℕ × ℕ × ℕ) → List UInt8 → List Char
  | none, [] => []
  | some _, [] => [Char.ofNat 0xFFFD]
  | none, byte :: rest => (utf8Start byte).1 ++ decodeLossy (utf8Start byte).2 rest
  | some (needed, lower, upper, bits), byte :: rest =>
    if lower ≤ byte.toNat ∧ byte.toNat ≤ upper then
      let bits := bits * 64 + (byte.toNat - 0x80)
      if needed = 1 then Char.ofNat bits :: decodeLossy none rest
      else decodeLossy (some (needed - 1, 0x80, 0xBF, bits)) rest
    else
      Char.ofNat 0xFFFD :: ((utf8Start byte).1 ++ decodeLossy (utf8Start byte).2 rest)

/-- `toString("utf8")` of a buffer. -/
def utf8Text (bytes : List UInt8) : String :=
  let array : ByteArray := ⟨bytes.toArray⟩
  if h : array.IsValidUTF8 then String.ofByteArray array h
  else String.ofList (decodeLossy none bytes)

@[simp]
theorem utf8Text_utf8Bytes (text : String) : utf8Text (utf8Bytes text) = text := by
  have harray : (⟨(utf8Bytes text).toArray⟩ : ByteArray) = text.toByteArray := by simp [utf8Bytes]
  unfold utf8Text
  simp only [harray, text.isValidUTF8, dif_pos]

theorem utf8Bytes_injective : Function.Injective utf8Bytes := by
  intro first second heq
  rw [← utf8Text_utf8Bytes first, heq, utf8Text_utf8Bytes]

/-! ## Base64 -/

/-- The six bits of a base64 character, in either alphabet. -/
def base64Value (c : Char) : Option ℕ :=
  let n := c.toNat
  if 65 ≤ n ∧ n ≤ 90 then some (n - 65)
  else if 97 ≤ n ∧ n ≤ 122 then some (n - 71)
  else if 48 ≤ n ∧ n ≤ 57 then some (n + 4)
  else if n = 43 ∨ n = 45 then some 62
  else if n = 47 ∨ n = 95 then some 63
  else none

/-- Four groups of six bits are three bytes; a shorter last group carries the
bytes it has all the bits of. -/
def base64Bytes : List ℕ → List UInt8
  | a :: b :: c :: d :: rest =>
    UInt8.ofNat (a * 4 + b / 16) :: UInt8.ofNat (b % 16 * 16 + c / 4) ::
      UInt8.ofNat (c % 4 * 64 + d) :: base64Bytes rest
  | [a, b, c] => [UInt8.ofNat (a * 4 + b / 16), UInt8.ofNat (b % 16 * 16 + c / 4)]
  | [a, b] => [UInt8.ofNat (a * 4 + b / 16)]
  | _ => []

/-- `Buffer.from(text, "base64")`: the padding ends the text and characters
outside the alphabet are passed over. -/
def base64Decode (text : String) : List UInt8 :=
  base64Bytes ((text.toList.takeWhile (· ≠ '=')).filterMap base64Value)

/-- The characters that stand for the given groups of six bits, with padding
behind them, decode to the bytes of the groups. -/
theorem base64Decode_of_values {chars padding : List Char} {values : List ℕ}
    (hvalues : chars.map base64Value = values.map some)
    (hpadding : padding = [] ∨ padding.head? = some '=') :
    base64Decode (String.ofList (chars ++ padding)) = base64Bytes values := by
  have hplain : ∀ c ∈ chars, c ≠ '=' := by
    rintro c hc rfl
    have hmem : base64Value '=' ∈ values.map some := hvalues ▸ List.mem_map_of_mem hc
    have hnone : base64Value '=' = none := by decide
    simp [hnone] at hmem
  have htake : (chars ++ padding).takeWhile (· ≠ '=') = chars := by
    rw [List.takeWhile_append_of_pos (by simpa using hplain)]
    rcases hpadding with rfl | hhead
    · simp
    · cases padding with
      | nil => simp
      | cons c tail => simp_all
  have hfilter : chars.filterMap base64Value = values := by
    have := congrArg (List.filterMap id) hvalues
    simpa [List.filterMap_map, Function.comp_def] using this
  simp only [base64Decode, String.toList_ofList, htake, hfilter]

/-! ## White space at the ends of a text

Rust removes the characters with the property `White_Space`, JavaScript the white space and line
terminators of its own grammar, among them the byte order mark but not the next-line character. -/

variable (c : Char) (isSpace : Char → Bool) (text : String)

/-- The white space the two languages agree on. -/
def isCommonSpace : Bool :=
  let n := c.toNat
  (0x9 ≤ n && n ≤ 0xD) || n == 0x20 || n == 0xA0 || n == 0x1680 || (0x2000 ≤ n && n ≤ 0x200A) ||
    n == 0x2028 || n == 0x2029 || n == 0x202F || n == 0x205F || n == 0x3000

/-- `char::is_whitespace`. -/
def isRustSpace : Bool := isCommonSpace c || c.toNat == 0x85

/-- The characters `String.prototype.trim` removes. -/
def isJsSpace : Bool := isCommonSpace c || c.toNat == 0xFEFF

/-- A text without the characters of one kind at its ends. -/
def trimText : String := String.ofList ((text.toList.dropWhile isSpace).rdropWhile isSpace)

/-- `str::trim`. -/
def rustTrim : String := trimText isRustSpace text

/-- `String.prototype.trim`. -/
def jsTrim : String := trimText isJsSpace text

/-- A text as `||` and truth tests of JavaScript take it: an empty one is none. -/
def truthyText (text : Option String) : Option String := text.filter (· ≠ "")

theorem dropWhile_rdropWhile_dropWhile (chars : List Char) :
    ((chars.dropWhile isSpace).rdropWhile isSpace).dropWhile isSpace =
      (chars.dropWhile isSpace).rdropWhile isSpace := by
  rw [List.dropWhile_eq_self_iff]
  intro hlength
  have hbegins := List.rdropWhile_prefix isSpace (chars.dropWhile isSpace)
  have hrest : 0 < (chars.dropWhile isSpace).length := lt_of_lt_of_le hlength hbegins.length_le
  have hhead := List.IsPrefix.getElem hbegins hlength
  rw [hhead]
  simpa using List.dropWhile_get_zero_not isSpace chars hrest

/-- A trimmed text has nothing left to trim. -/
@[simp]
theorem trimText_trimText : trimText isSpace (trimText isSpace text) = trimText isSpace text := by
  simp only [trimText, String.toList_ofList, dropWhile_rdropWhile_dropWhile,
    List.rdropWhile_idempotent]

end Nobie.Foundation
