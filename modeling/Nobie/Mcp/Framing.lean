/-
# The frames on the output of an MCP server

A server writes messages behind a header that gives their length in bytes. The client keeps what
it has read in a buffer, looks for the blank line that ends a header, and waits until the bytes
that the header announces are there. What it takes for a header is everything before the blank
line, so that text of the server in front of a frame is passed over with it.
-/

import Nobie.Foundation.Bytes
import Nobie.Foundation.Incremental
import Nobie.Foundation.JsonText

namespace Nobie.Mcp

open Foundation Foundation.Json List

abbrev Bytes : Type := List UInt8

/-- `\r\n\r\n`, which ends a header. -/
def blankLine : Bytes := [13, 10, 13, 10]

/-- `toString("utf8")`. -/
def utf8Chars (bytes : Bytes) : List Char := decodeLossy none bytes

/-! ## Reading a frame -/

/-- The text behind a name, whose letters are given in lower case. -/
def stripName : List Char → List Char → Option (List Char)
  | [], text => some text
  | _ :: _, [] => none
  | letter :: name, c :: text => if c.toLower = letter then stripName name text else none

/-- `content-length:` -/
def fieldName : List Char :=
  ['c', 'o', 'n', 't', 'e', 'n', 't', '-', 'l', 'e', 'n', 'g', 't', 'h', ':']

/-- The digits behind the name of the field and white space, at the front of a text. -/
def fieldDigits? (text : List Char) : Option (List Char) :=
  (stripName fieldName text).bind fun rest =>
    match (rest.dropWhile isJsSpace).takeWhile Char.isDigit with
    | [] => none
    | digits => some digits

/-- The first match of `/Content-Length:\s*(\d+)/i`, as a number. -/
def contentLength? : List Char → Option ℕ
  | [] => none
  | c :: text =>
    match fieldDigits? (c :: text) with
    | some digits => some (Nat.ofDigitChars 10 digits 0)
    | none => contentLength? text

/-- One round of `consumeFrames` on the buffer: the body of a frame, or nothing where a header
without a length is passed over. -/
def readFrame? (stdoutBuffer : Bytes) : Option (Option Bytes × Bytes) :=
  match firstIndex? blankLine stdoutBuffer with
  | none => none
  | some headerEnd =>
    match contentLength? (utf8Chars (stdoutBuffer.take headerEnd)) with
    | none => some (none, stdoutBuffer.drop (headerEnd + 4))
    | some bodyLength =>
      let totalLength := headerEnd + 4 + bodyLength
      if stdoutBuffer.length < totalLength then none
      else
        some (some ((stdoutBuffer.take totalLength).drop (headerEnd + 4)),
          stdoutBuffer.drop totalLength)

theorem blankLine_ne_nil : blankLine ≠ [] := cons_ne_nil _ _

variable {buffer : Bytes} (rest : Bytes) {c : Char} {text : List Char}

theorem headerEnd_le {headerEnd : ℕ} (hheader : firstIndex? blankLine buffer = some headerEnd) :
    headerEnd + 4 ≤ buffer.length := length_le_of_firstIndex? blankLine_ne_nil hheader

variable {body : Option Bytes} {byte : UInt8} {pending : ℕ × ℕ × ℕ × ℕ}

theorem readFrame?_shrinks {rest : Bytes} (hread : readFrame? buffer = some (body, rest)) :
    rest.length < buffer.length := by
  unfold readFrame? at hread
  cases hheader : firstIndex? blankLine buffer with
  | none => simp [hheader] at hread
  | some headerEnd =>
    have hbound := headerEnd_le hheader
    simp only [hheader] at hread
    split at hread
    · cases Option.some.inj hread
      rw [length_drop]
      omega
    · split_ifs at hread with hwaits
      cases Option.some.inj hread
      rw [length_drop]
      omega

theorem readFrame?_grows {rest : Bytes} (more : Bytes)
    (hread : readFrame? buffer = some (body, rest)) :
    readFrame? (buffer ++ more) = some (body, rest ++ more) := by
  unfold readFrame? at hread ⊢
  cases hheader : firstIndex? blankLine buffer with
  | none => simp [hheader] at hread
  | some headerEnd =>
    have hbound := headerEnd_le hheader
    have htake : (buffer ++ more).take headerEnd = buffer.take headerEnd :=
      take_append_of_le_length (by omega)
    simp only [hheader] at hread
    simp only [firstIndex?_append blankLine_ne_nil hheader more, htake]
    cases hlength : contentLength? (utf8Chars (buffer.take headerEnd)) with
    | none =>
      simp only [hlength] at hread
      cases Option.some.inj hread
      rw [drop_append_of_le_length hbound]
    | some bodyLength =>
      simp only [hlength] at hread
      split_ifs at hread with hwaits
      cases Option.some.inj hread
      have hthere : headerEnd + 4 + bodyLength ≤ buffer.length := Nat.le_of_not_lt hwaits
      have hgrown : ¬ (buffer ++ more).length < headerEnd + 4 + bodyLength := by
        rw [length_append]
        omega
      simp only [if_neg hgrown]
      rw [take_append_of_le_length hthere, drop_append_of_le_length hthere]

/-- The frames of a server's output. -/
def frames : Reader UInt8 Bytes where
  next? := readFrame?
  shrinks := readFrame?_shrinks
  grows := readFrame?_grows

/-! ## Well-formed output -/

def asciiBytes (chars : List Char) : Bytes := chars.map fun c => UInt8.ofNat c.toNat

/-- A message with its header: the length of the body, and further fields, a line each. -/
structure Frame where
  body : Bytes
  fields : List Bytes := []
  fields_lines : ∀ field ∈ fields, field ≠ [] ∧ ∀ byte ∈ field, byte ≠ 13 ∧ byte ≠ 10 := by simp

/-- `Content-Length: ` -/
def fieldFront : List Char :=
  ['C', 'o', 'n', 't', 'e', 'n', 't', '-', 'L', 'e', 'n', 'g', 't', 'h', ':', ' ']

/-- The further lines of a header. -/
def furtherLines (fields : List Bytes) : Bytes := fields.flatMap fun field => 13 :: 10 :: field

variable (frame : Frame)

namespace Frame

def lengthLine : List Char := fieldFront ++ Nat.toDigits 10 frame.body.length

def header : Bytes := asciiBytes frame.lengthLine ++ furtherLines frame.fields

end Frame

/-- A frame with the text that the server writes in front of it. -/
structure Piece where
  text : Bytes := []
  frame : Frame
  text_noBlankLine : ¬ blankLine <:+: text := by decide

namespace Piece

def bytes (piece : Piece) : Bytes :=
  (piece.text ++ piece.frame.header) ++ (blankLine ++ piece.frame.body)

/-- The text in front of the frame names no length of its own. -/
def Unmistakable (piece : Piece) : Prop := contentLength? (utf8Chars piece.text) = none

instance (piece : Piece) : Decidable piece.Unmistakable := inferInstanceAs (Decidable (_ = _))

end Piece

/-- What the server writes. -/
def output (pieces : List Piece) : Bytes := pieces.flatMap Piece.bytes

/-- The bodies of the frames that are complete in so many bytes of the output. -/
def completeBodies : List Piece → ℕ → List Bytes
  | [], _ => []
  | piece :: pieces, length =>
    if piece.bytes.length ≤ length then
      piece.frame.body :: completeBodies pieces (length - piece.bytes.length)
    else []

/-! ### Where a header ends -/

theorem not_infix_of_length_lt {pattern text : Bytes} (hlength : text.length < pattern.length) :
    ¬ pattern <:+: text := fun hwithin => absurd hwithin.length_le (Nat.not_le_of_lt hlength)

/-- A blank line does not begin in what has no line break. -/
theorem not_infix_append {line rest : Bytes} (hline : ∀ byte ∈ line, byte ≠ 13 ∧ byte ≠ 10)
    (hrest : ¬ blankLine <:+: rest) : ¬ blankLine <:+: line ++ rest := by
  induction line with
  | nil => exact hrest
  | cons byte line ih =>
    obtain ⟨hbyte, hline⟩ := forall_mem_cons.mp hline
    intro hwithin
    have hletter : byte ∉ blankLine := by simp [blankLine, hbyte.1, hbyte.2]
    have hwithin : blankLine <:+: [] ++ byte :: (line ++ rest) := hwithin
    obtain hfront | htail := infix_of_infix_append_cons hletter hwithin
    · exact not_infix_of_length_lt (by decide) hfront
    · exact ih hline htail

theorem not_infix_furtherLines {fields : List Bytes}
    (hfields : ∀ field ∈ fields, field ≠ [] ∧ ∀ byte ∈ field, byte ≠ 13 ∧ byte ≠ 10) :
    ¬ blankLine <:+: furtherLines fields ++ blankLine.dropLast := by
  induction fields with
  | nil => exact not_infix_of_length_lt (by decide)
  | cons field fields ih =>
    obtain ⟨⟨hne, hfield⟩, hrest⟩ := forall_mem_cons.mp hfields
    obtain ⟨byte, line, rfl⟩ := exists_cons_of_ne_nil hne
    obtain ⟨hbyte, hline⟩ := forall_mem_cons.mp hfield
    have hletter : byte ∉ blankLine := by simp [blankLine, hbyte.1, hbyte.2]
    have hshape : furtherLines ((byte :: line) :: fields) ++ blankLine.dropLast =
        [13, 10] ++ byte :: (line ++ (furtherLines fields ++ blankLine.dropLast)) := by
      simp [furtherLines]
    rw [hshape]
    intro hwithin
    obtain hfront | htail := infix_of_infix_append_cons hletter hwithin
    · exact not_infix_of_length_lt (by decide) hfront
    · exact not_infix_append hline (ih hrest) htail

theorem lengthLine_ascii :
    ∀ c ∈ frame.lengthLine, c.toNat < 0x80 ∧ c.toNat ≠ 13 ∧ c.toNat ≠ 10 := by
  intro c hc
  obtain hfront | hdigit := mem_append.mp hc
  · have hfixed : ∀ c ∈ fieldFront, c.toNat < 0x80 ∧ c.toNat ≠ 13 ∧ c.toNat ≠ 10 := by
      simp [fieldFront]
    exact hfixed c hfront
  · have hdigit := isDigit_of_mem_toDigits c hdigit
    simp only [Char.isDigit, Bool.and_eq_true, decide_eq_true_eq, UInt32.le_iff_toNat_le] at hdigit
    have hlow : (48 : ℕ) ≤ c.toNat := hdigit.1
    have hhigh : c.toNat ≤ 57 := hdigit.2
    omega

theorem not_infix_header (piece : Piece) :
    ¬ blankLine <:+: (piece.text ++ piece.frame.header) ++ blankLine.dropLast := by
  have hplain : ∀ byte ∈ asciiBytes (piece.frame.lengthLine.tail), byte ≠ 13 ∧ byte ≠ 10 := by
    intro byte hbyte
    obtain ⟨c, hc, rfl⟩ := mem_map.mp hbyte
    obtain ⟨hascii, hreturn, hfeed⟩ := lengthLine_ascii piece.frame c (mem_of_mem_tail hc)
    simp only [ne_eq, ← UInt8.toNat_inj, UInt8.toNat_ofNat']
    rw [Nat.mod_eq_of_lt (by omega)]
    exact ⟨hreturn, hfeed⟩
  have hshape : (piece.text ++ piece.frame.header) ++ blankLine.dropLast =
      piece.text ++ 67 :: (asciiBytes piece.frame.lengthLine.tail ++
        (furtherLines piece.frame.fields ++ blankLine.dropLast)) := by
    simp [Frame.header, Frame.lengthLine, fieldFront, asciiBytes]
  rw [hshape]
  intro hwithin
  obtain hfront | htail := infix_of_infix_append_cons (by decide) hwithin
  · exact piece.text_noBlankLine hfront
  · exact not_infix_append hplain (not_infix_furtherLines piece.frame.fields_lines) htail

theorem firstIndex?_piece (piece : Piece) (rest : Bytes) :
    firstIndex? blankLine (piece.bytes ++ rest) =
      some (piece.text ++ piece.frame.header).length := by
  have hshape : piece.bytes ++ rest =
      (piece.text ++ piece.frame.header) ++ (blankLine ++ (piece.frame.body ++ rest)) := by
    simp [Piece.bytes]
  rw [hshape]
  exact firstIndex?_of_not_infix blankLine_ne_nil (not_infix_header piece) _

/-! ### What a header says -/

theorem le_of_utf8Lead (hlead : utf8Lead byte = some pending) : 0x80 ≤ pending.2.1 := by
  unfold utf8Lead at hlead
  dsimp only at hlead
  split_ifs at hlead <;> cases hlead <;> norm_num

theorem le_of_utf8Start (hstart : (utf8Start byte).2 = some pending) : 0x80 ≤ pending.2.1 := by
  unfold utf8Start at hstart
  split_ifs at hstart
  split at hstart
  · next hlead =>
    cases hstart
    exact le_of_utf8Lead hlead
  · cases hstart

theorem utf8Start_ascii (hc : c.toNat < 0x80) : utf8Start (UInt8.ofNat c.toNat) = ([c], none) := by
  have hbyte : (UInt8.ofNat c.toNat).toNat = c.toNat := by
    rw [UInt8.toNat_ofNat']
    exact Nat.mod_eq_of_lt (by omega)
  rw [utf8Start, hbyte, if_pos hc, Char.ofNat_toNat]

/-- An ASCII character ends whatever sequence is open before it. -/
theorem decodeLossy_append (pending : Option (ℕ × ℕ × ℕ × ℕ))
    (hpending : ∀ open_ ∈ pending, 0x80 ≤ open_.2.1) (front : Bytes) (hc : c.toNat < 0x80)
    (rest : Bytes) :
    decodeLossy pending (front ++ UInt8.ofNat c.toNat :: rest) =
      decodeLossy pending front ++ c :: decodeLossy none rest := by
  have hbyte : (UInt8.ofNat c.toNat).toNat = c.toNat := by
    rw [UInt8.toNat_ofNat']
    exact Nat.mod_eq_of_lt (by omega)
  induction front generalizing pending with
  | nil =>
    cases pending with
    | none => simp [decodeLossy, utf8Start_ascii hc]
    | some open_ =>
      obtain ⟨needed, lower, upper, bits⟩ := open_
      have hlower : 0x80 ≤ lower := hpending _ rfl
      have hnot : ¬ (lower ≤ c.toNat ∧ c.toNat ≤ upper) := by omega
      simp [decodeLossy, hbyte, hnot, utf8Start_ascii hc]
  | cons byte front ih =>
    have hstart : ∀ open_ ∈ (utf8Start byte).2, 0x80 ≤ open_.2.1 := fun _ hopen =>
      le_of_utf8Start hopen
    cases pending with
    | none => rw [cons_append, decodeLossy, decodeLossy, ih _ hstart, append_assoc]
    | some open_ =>
      obtain ⟨needed, lower, upper, bits⟩ := open_
      rw [cons_append, decodeLossy, decodeLossy]
      split_ifs with hrange hlast
      · simp only [ih none (by simp), cons_append]
      · rw [ih _ (by simp)]
      · simp only [ih _ hstart, cons_append, append_assoc]

theorem utf8Chars_append (front : Bytes) {chars : List Char} (hne : chars ≠ [])
    (hchars : ∀ c ∈ chars, c.toNat < 0x80) (rest : Bytes) :
    utf8Chars (front ++ (asciiBytes chars ++ rest)) =
      utf8Chars front ++ (chars ++ utf8Chars rest) := by
  induction chars generalizing front with
  | nil => exact absurd rfl hne
  | cons c chars ih =>
    obtain ⟨hc, hothers⟩ := forall_mem_cons.mp hchars
    have hfirst := decodeLossy_append none (by simp) front hc (asciiBytes chars ++ rest)
    cases chars with
    | nil => exact hfirst
    | cons other chars =>
      have hrest := ih [] (by simp) hothers
      calc utf8Chars (front ++ (asciiBytes (c :: other :: chars) ++ rest))
          = utf8Chars front ++ c :: utf8Chars (asciiBytes (other :: chars) ++ rest) := hfirst
        _ = _ := by
          rw [← nil_append (asciiBytes (other :: chars) ++ rest), hrest]
          rfl

theorem stripName_append {name rest : List Char} (hname : 'c' ∉ name) :
    stripName name (text ++ 'C' :: rest) = (stripName name text).map (· ++ 'C' :: rest) := by
  induction name generalizing text with
  | nil => rfl
  | cons letter name ih =>
    obtain ⟨hletter, hname⟩ := not_or.mp (mem_cons.not.mp hname)
    cases text with
    | nil =>
      have hlower : ¬ 'C'.toLower = letter := fun h => hletter (h ▸ rfl)
      exact if_neg hlower
    | cons c text =>
      rw [cons_append, stripName, stripName]
      split_ifs with hc
      · exact ih hname
      · rfl

/-- No match that begins in a text reaches into the field behind it. -/
theorem fieldDigits?_append {rest : List Char} (hnone : fieldDigits? (c :: text) = none) :
    fieldDigits? (c :: text ++ 'C' :: rest) = none := by
  have hstrip : stripName fieldName (c :: text ++ 'C' :: rest) =
      (stripName fieldName (c :: text)).map (· ++ 'C' :: rest) := by
    rw [cons_append, fieldName, stripName, stripName]
    split_ifs
    · exact stripName_append (by decide)
    · rfl
  unfold fieldDigits? at hnone ⊢
  rw [hstrip]
  cases hbehind : stripName fieldName (c :: text) with
  | none => rfl
  | some behind =>
    rw [hbehind, Option.bind_some] at hnone
    rw [Option.map_some, Option.bind_some]
    have hdigits : ((behind ++ 'C' :: rest).dropWhile isJsSpace).takeWhile Char.isDigit = [] := by
      have hempty : (behind.dropWhile isJsSpace).takeWhile Char.isDigit = [] := by
        revert hnone
        cases (behind.dropWhile isJsSpace).takeWhile Char.isDigit with
        | nil => intro _; rfl
        | cons digit digits => intro hnone; cases hnone
      cases hspaces : behind.dropWhile isJsSpace with
      | nil =>
        rw [dropWhile_append, hspaces]
        rfl
      | cons other others =>
        rw [dropWhile_append, hspaces]
        rw [hspaces] at hempty
        rw [takeWhile_cons] at hempty
        split_ifs at hempty with hdigit
        simp [hdigit]
    rw [hdigits]

theorem contentLength?_append {rest : List Char} (hnone : contentLength? text = none) :
    contentLength? (text ++ 'C' :: rest) = contentLength? ('C' :: rest) := by
  induction text with
  | nil => rfl
  | cons c text ih =>
    cases hdigits : fieldDigits? (c :: text) with
    | some digits => simp [contentLength?, hdigits] at hnone
    | none =>
      simp only [contentLength?, hdigits] at hnone
      rw [← ih hnone, cons_append, contentLength?]
      rw [← cons_append, fieldDigits?_append hdigits]

theorem contentLength?_lengthLine {rest : List Char} (hrest : EndsDigits rest) :
    contentLength? (frame.lengthLine ++ rest) = some frame.body.length := by
  obtain ⟨digit, digits, hshape, hdigit⟩ := toDigits_head frame.body.length
  have hall : ∀ c ∈ digit :: digits, c.isDigit := fun c hc =>
    isDigit_of_mem_toDigits c (hshape ▸ hc)
  have hspace : isJsSpace digit = false := by
    simp only [Char.isDigit, Bool.and_eq_true, decide_eq_true_eq, UInt32.le_iff_toNat_le] at hdigit
    have hlow : (48 : ℕ) ≤ digit.toNat := hdigit.1
    have hhigh : digit.toNat ≤ 57 := hdigit.2
    simp only [isJsSpace, isCommonSpace, Bool.or_eq_false_iff, Bool.and_eq_false_iff,
      decide_eq_false_iff_not, beq_eq_false_iff_ne]
    omega
  have hdrop : (' ' :: (digit :: digits ++ rest)).dropWhile isJsSpace =
      digit :: digits ++ rest := by
    rw [dropWhile_cons_of_pos (by decide), cons_append, dropWhile_cons_of_neg (by simp [hspace])]
  have hread : fieldDigits? (fieldFront ++ (digit :: digits ++ rest)) = some (digit :: digits) := by
    have hstrip : stripName fieldName (fieldFront ++ (digit :: digits ++ rest)) =
        some (' ' :: (digit :: digits ++ rest)) := rfl
    rw [fieldDigits?, hstrip, Option.bind_some, hdrop,
      (takeWhile_append_of_endsDigits hall hrest).1]
  have hhead : fieldFront ++ (digit :: digits ++ rest) =
      'C' :: (fieldFront.tail ++ (digit :: digits ++ rest)) := rfl
  rw [Frame.lengthLine, append_assoc, hshape, hhead, contentLength?, ← hhead, hread, ← hshape]
  simp

theorem endsDigits_furtherLines (fields : List Bytes) :
    EndsDigits (utf8Chars (furtherLines fields)) := by
  cases fields with
  | nil =>
    intro c tail h
    cases h
  | cons field fields =>
    have hbegins : utf8Chars (furtherLines (field :: fields)) =
        Char.ofNat 13 :: utf8Chars (10 :: field ++ furtherLines fields) := rfl
    rw [hbegins]
    exact endsDigits_cons (by decide)

variable {piece : Piece}

/-- The header that ends before the blank line of a frame gives the length of its body. -/
theorem contentLength?_piece (hpiece : piece.Unmistakable) :
    contentLength? (utf8Chars (piece.text ++ piece.frame.header)) =
      some piece.frame.body.length := by
  have hchars : ∀ c ∈ piece.frame.lengthLine, c.toNat < 0x80 := fun c hc =>
    (lengthLine_ascii piece.frame c hc).1
  have hne : piece.frame.lengthLine ≠ [] := by simp [Frame.lengthLine, fieldFront]
  have hlast := endsDigits_furtherLines piece.frame.fields
  rw [Frame.header, utf8Chars_append piece.text hne hchars, Frame.lengthLine,
    ← contentLength?_lengthLine piece.frame hlast]
  exact contentLength?_append hpiece

/-! ### Reading the output -/

theorem length_bytes (piece : Piece) :
    piece.bytes.length =
      (piece.text ++ piece.frame.header).length + 4 + piece.frame.body.length := by
  have hblank : blankLine.length = 4 := rfl
  simp only [Piece.bytes, length_append, hblank, Nat.add_assoc]

/-- A frame that is there is taken off with the text in front of it. -/
theorem readFrame?_piece (hpiece : piece.Unmistakable) (rest : Bytes) :
    readFrame? (piece.bytes ++ rest) = some (some piece.frame.body, rest) := by
  have htake : (piece.bytes ++ rest).take (piece.text ++ piece.frame.header).length =
      piece.text ++ piece.frame.header := by
    rw [Piece.bytes, append_assoc]
    exact take_left
  have hthere : ¬ (piece.bytes ++ rest).length <
      (piece.text ++ piece.frame.header).length + 4 + piece.frame.body.length := by
    rw [← length_bytes, length_append]
    omega
  have hbody : piece.bytes.drop ((piece.text ++ piece.frame.header).length + 4) =
      piece.frame.body := by
    rw [Piece.bytes, ← drop_drop, drop_left]
    rfl
  rw [readFrame?, firstIndex?_piece]
  dsimp only
  rw [htake, contentLength?_piece hpiece]
  dsimp only
  rw [if_neg hthere, ← length_bytes, take_left, drop_left, hbody]

/-- A frame that is not complete is waited for. -/
theorem readFrame?_part (hpiece : piece.Unmistakable) {part : Bytes} (hpart : part <+: piece.bytes)
    (hlength : part.length < piece.bytes.length) : readFrame? part = none := by
  obtain ⟨missing, hmissing⟩ := hpart
  rw [readFrame?]
  cases hheader : firstIndex? blankLine part with
  | none => rfl
  | some headerEnd =>
    have hplace := firstIndex?_append blankLine_ne_nil hheader missing
    rw [hmissing, ← append_nil piece.bytes, firstIndex?_piece] at hplace
    cases hplace
    have hbound := headerEnd_le hheader
    have htake : part.take (piece.text ++ piece.frame.header).length =
        piece.text ++ piece.frame.header := by
      have hlonger : (part ++ missing).take (piece.text ++ piece.frame.header).length =
          part.take (piece.text ++ piece.frame.header).length :=
        take_append_of_le_length (by omega)
      rw [← hlonger, hmissing, Piece.bytes]
      exact take_left
    rw [length_bytes] at hlength
    simp only [htake, contentLength?_piece hpiece]
    exact if_pos hlength

/-- However much of the output is there, the frames that are taken off it are the complete ones,
each once and in order. -/
theorem consume_output {pieces : List Piece} (hpieces : ∀ piece ∈ pieces, piece.Unmistakable)
    {delivered : Bytes} (hdelivered : delivered <+: output pieces) :
    (frames.consume delivered).1 = completeBodies pieces delivered.length := by
  induction pieces generalizing delivered with
  | nil =>
    obtain rfl := prefix_nil.mp hdelivered
    rfl
  | cons piece pieces ih =>
    obtain ⟨hpiece, hothers⟩ := forall_mem_cons.mp hpieces
    rw [output, flatMap_cons] at hdelivered
    rw [completeBodies]
    by_cases hcomplete : piece.bytes.length ≤ delivered.length
    · obtain ⟨rest, rfl⟩ := prefix_of_prefix_length_le
        (prefix_append piece.bytes _) hdelivered hcomplete
      have hrest := (prefix_append_right_inj piece.bytes).mp hdelivered
      have hread : frames.next? (piece.bytes ++ rest) = some (some piece.frame.body, rest) :=
        readFrame?_piece hpiece rest
      rw [if_pos hcomplete, Reader.consume_of_some hread, ih hothers hrest, length_append,
        Nat.add_sub_cancel_left]
      rfl
    · have hpart : delivered <+: piece.bytes :=
        prefix_of_prefix_length_le hdelivered (prefix_append _ _) (by omega)
      have hread : frames.next? delivered = none := readFrame?_part hpiece hpart (by omega)
      rw [if_neg hcomplete, Reader.consume_of_none hread]

end Nobie.Mcp
