/-
# Cron expressions

A cron expression has five fields of comma-separated parts. Its parser reads numbers with
`parseInt` and `Number` and looks at no bound, so that it takes the expressions of the grammar for
what they stand for and others besides.
-/

import Mathlib.Order.Interval.Finset.Nat
import Nobie.Foundation.JsString

namespace Nobie.Scheduler

open Foundation List
open Foundation.JsString

/-! ## Numbers -/

/-- The numbers of the language, without the one that is none. -/
structure NumberHost where
  Number : Type
  /-- `Number(text)`. -/
  number? : JsString → Option Number
  ofInt : ℤ → Number
  /-- `i <= b`. -/
  atMost : Number → Number → Bool
  /-- `i + 1`. -/
  next : Number → Number

def isDigit (unit : CodeUnit) : Bool := 48 ≤ unit.val && unit.val ≤ 57

def digitsValue (digits : JsString) : ℕ :=
  digits.foldl (fun value unit => value * 10 + (unit.val - 48)) 0

variable (text : JsString) {fuel : ℕ}

/-- One digit or more and nothing else. -/
def isDecimal : Bool := !text.isEmpty && text.all isDigit

/-- Whole numbers that are told from their neighbours. -/
def IsSafe (n : ℤ) : Prop := |n| ≤ 2 ^ 53 - 1

/-- What numbers do where they are whole and safe. -/
structure NumberHost.Lawful (host : NumberHost) : Prop where
  number?_decimal : ∀ text, isDecimal text → IsSafe (digitsValue text) →
    host.number? text = some (host.ofInt (digitsValue text))
  atMost_ofInt : ∀ i b, IsSafe i → IsSafe b →
    host.atMost (host.ofInt i) (host.ofInt b) = decide (i ≤ b)
  next_ofInt : ∀ i, IsSafe i → host.next (host.ofInt i) = host.ofInt (i + 1)

/-- `parseInt(text, 10)`. -/
def parseInt : Option ℤ :=
  let text := text.dropWhile isSpace
  let sign : ℤ := if text.head? = some (codeUnit 45) then -1 else 1
  let unsigned :=
    if text.head? = some (codeUnit 45) ∨ text.head? = some (codeUnit 43) then text.tail else text
  let digits := unsigned.takeWhile isDigit
  if digits.isEmpty then none else some (sign * digitsValue digits)

/-! ## The parser -/

/-- `for (let i = first; i <= last; i += step)`. -/
def countBy (step last : ℕ) : ℕ → ℕ → List ℕ
  | 0, _ => []
  | fuel + 1, i => if i ≤ last then i :: countBy step last fuel (i + step) else []

/-- `split(/\s+/)` of a text without white space at its ends. -/
def splitBlanks : List JsString :=
  if text.isEmpty then [text] else (text.splitOnP isSpace).filter fun piece => !piece.isEmpty

structure CronFields (Number : Type) where
  (minutes hours days months weekdays : List Number)

section Parser

variable (host : NumberHost)

/-- `for (let i = a; i <= b; i++)`, which need not end. -/
def countTo (b : host.Number) : ℕ → host.Number → Option (List host.Number)
  | 0, _ => none
  | fuel + 1, i =>
    if host.atMost i b then (countTo b fuel (host.next i)).map (i :: ·) else some []

variable (fuel min max : ℕ)

/-- The values that a part adds to the set of its field. -/
def parsePart (part : JsString) : Option (List host.Number) :=
  if part = ofString "*" then some ((countBy 1 max (max + 1) min).map fun i : ℕ => host.ofInt i)
  else if part.take 2 = ofString "*/" then
    (parseInt (part.drop 2)).bind fun step =>
      if step ≤ 0 then none
      else some ((countBy step.toNat max (max + 1) min).map fun i : ℕ => host.ofInt i)
  else
    match part.splitOn (codeUnit 45) with
    | a :: b :: _ => (host.number? a).bind fun a => (host.number? b).bind fun b =>
      countTo host b fuel a
    | _ => (parseInt part).map fun n => [host.ofInt n]

def parseParts : List JsString → Option (List host.Number)
  | [] => some []
  | part :: rest => (parsePart host fuel min max part).bind fun values =>
    (parseParts rest).map (values ++ ·)

def parseField (field : JsString) : Option (List host.Number) :=
  parseParts host fuel min max (field.splitOn (codeUnit 44))

def parseCron (expr : JsString) : Option (CronFields host.Number) :=
  match splitBlanks (trim expr) with
  | [m, h, d, mo, wd] => do
    let minutes ← parseField host fuel 0 59 m
    let hours ← parseField host fuel 0 23 h
    let days ← parseField host fuel 1 31 d
    let months ← parseField host fuel 1 12 mo
    let weekdays ← parseField host fuel 0 6 wd
    some ⟨minutes, hours, days, months, weekdays⟩
  | _ => none

def isValidCron (expr : JsString) : Bool := (parseCron host fuel expr).isSome

end Parser

/-! ## The grammar -/

section Grammar

variable (min max : ℕ)

/-- The values that a part of the grammar stands for. -/
def denotation? (part : JsString) : Option (Finset ℕ) :=
  if part = ofString "*" then some (Finset.Icc min max)
  else if part.take 2 = ofString "*/" then
    if isDecimal (part.drop 2) ∧ 0 < digitsValue (part.drop 2) then
      some ((Finset.Icc min max).filter fun v => digitsValue (part.drop 2) ∣ v - min)
    else none
  else
    match part.splitOn (codeUnit 45) with
    | [value] =>
      if isDecimal value ∧ min ≤ digitsValue value ∧ digitsValue value ≤ max then
        some {digitsValue value}
      else none
    | [a, b] =>
      if isDecimal a ∧ isDecimal b ∧ min ≤ digitsValue a ∧ digitsValue a ≤ digitsValue b ∧
          digitsValue b ≤ max then
        some (Finset.Icc (digitsValue a) (digitsValue b))
      else none
    | _ => none

/-- Every part of a field is one of the grammar. -/
def InField (field : JsString) : Prop :=
  ∀ part ∈ field.splitOn (codeUnit 44), (denotation? min max part).isSome

/-- A value is one that a field stands for. -/
def Denotes (field : JsString) (v : ℕ) : Prop :=
  ∃ part ∈ field.splitOn (codeUnit 44), ∃ values, denotation? min max part = some values ∧
    v ∈ values

end Grammar

/-- An expression has five fields, and something holds of each with its least and greatest
value. -/
def EachField (holds : ℕ → ℕ → JsString → Prop) (expr : JsString) : Prop :=
  ∃ m h d mo wd, splitBlanks (trim expr) = [m, h, d, mo, wd] ∧ holds 0 59 m ∧ holds 0 23 h ∧
    holds 1 31 d ∧ holds 1 12 mo ∧ holds 0 6 wd

def InGrammar : JsString → Prop := EachField InField

variable (host : NumberHost)

/-- The set of a field: what the field stands for, which is something. -/
def IsSetOf (min max : ℕ) (field : JsString) (values : List host.Number) : Prop :=
  (∃ v, Denotes min max field v) ∧
    ∀ number, number ∈ values ↔ ∃ v : ℕ, Denotes min max field v ∧ number = host.ofInt v

/-- The parser takes exactly the expressions of the grammar, for what they stand for. -/
structure ParsesRightly (expr : JsString) : Prop where
  accepts : (∃ fuel, isValidCron host fuel expr) ↔ InGrammar expr
  sets : ∀ fuel fields, parseCron host fuel expr = some fields →
    ∃ m h d mo wd, splitBlanks (trim expr) = [m, h, d, mo, wd] ∧
      IsSetOf host 0 59 m fields.minutes ∧ IsSetOf host 0 23 h fields.hours ∧
      IsSetOf host 1 31 d fields.days ∧ IsSetOf host 1 12 mo fields.months ∧
      IsSetOf host 0 6 wd fields.weekdays

/-- Something is read out of a part: a step has a positive number at its front, the two pieces
about the first dash are numbers from one of which the count comes past the other, and another part
has a number at its front. -/
def Readable (part : JsString) : Prop :=
  if part = ofString "*" then True
  else if part.take 2 = ofString "*/" then ∃ step, parseInt (part.drop 2) = some step ∧ 0 < step
  else
    match part.splitOn (codeUnit 45) with
    | a :: b :: _ => ∃ first last, host.number? a = some first ∧ host.number? b = some last ∧
        ∃ count, host.atMost (host.next^[count] first) last = false
    | _ => (parseInt part).isSome

/-! ## Counting -/

variable {host}

variable {last first fuel' : ℕ} {values : List host.Number}

theorem mem_countBy {step : ℕ} (hfuel : last < fuel + first) (hstep : 0 < step) (v : ℕ) :
    v ∈ countBy step last fuel first ↔ ∃ k, v = first + k * step ∧ v ≤ last := by
  induction fuel generalizing first with
  | zero =>
    constructor
    · intro hv
      cases hv
    · rintro ⟨k, rfl, hle⟩
      omega
  | succ fuel ih =>
    unfold countBy
    split_ifs with hfirst
    · rw [mem_cons, ih (by omega)]
      constructor
      · rintro (rfl | ⟨k, rfl, hle⟩)
        · exact ⟨0, by omega, hfirst⟩
        · exact ⟨k + 1, by ring, hle⟩
      · rintro ⟨k, rfl, hle⟩
        cases k with
        | zero => exact .inl (by omega)
        | succ k => exact .inr ⟨k, by ring, hle⟩
    · constructor
      · intro hv
        cases hv
      · rintro ⟨k, rfl, hle⟩
        exact absurd ((Nat.le_add_right first _).trans hle) hfirst

theorem countTo_mono {b first : host.Number} (hle : fuel ≤ fuel')
    (h : countTo host b fuel first = some values) : countTo host b fuel' first = some values := by
  induction fuel generalizing fuel' first values with
  | zero => cases h
  | succ fuel ih =>
    cases fuel' with
    | zero => cases hle
    | succ fuel' =>
      unfold countTo at h ⊢
      split_ifs at h ⊢
      · obtain ⟨others, hothers, rfl⟩ := Option.map_eq_some_iff.mp h
        rw [ih (Nat.le_of_succ_le_succ hle) hothers, Option.map_some]
      · exact h

/-- The count ends exactly if it comes past its end. -/
theorem countTo_ends_iff (b first : host.Number) :
    (∃ fuel, (countTo host b fuel first).isSome) ↔
      ∃ count, host.atMost (host.next^[count] first) b = false := by
  constructor
  · rintro ⟨fuel, hfuel⟩
    induction fuel generalizing first with
    | zero => cases hfuel
    | succ fuel ih =>
      unfold countTo at hfuel
      split_ifs at hfuel with hmost
      · obtain ⟨count, hcount⟩ := ih (host.next first) (by simpa using hfuel)
        exact ⟨count + 1, hcount⟩
      · exact ⟨0, by simpa using hmost⟩
  · rintro ⟨count, hcount⟩
    refine ⟨count + 1, ?_⟩
    induction count generalizing first with
    | zero =>
      unfold countTo
      rw [if_neg (by simpa using hcount)]
      rfl
    | succ count ih =>
      unfold countTo
      split_ifs
      · rw [Option.isSome_map]
        exact ih (host.next first) hcount
      · rfl

theorem isSafe_of_le {n : ℕ} (hn : n ≤ 60) : IsSafe n := by
  unfold IsSafe
  rw [abs_of_nonneg (Int.natCast_nonneg n)]
  omega

theorem NumberHost.Lawful.iterate_next (hhost : host.Lawful) {count : ℕ} (hle : first + count ≤ 60)
    :
    host.next^[count] (host.ofInt first) = host.ofInt ((first + count : ℕ) : ℤ) := by
  induction count with
  | zero => rfl
  | succ count ih =>
    rw [Function.iterate_succ_apply', ih (by omega),
      hhost.next_ofInt _ (isSafe_of_le (by omega)), ← Nat.cast_succ]
    rfl

/-- A count between safe numbers goes through the numbers between them. -/
theorem mem_countTo (hhost : host.Lawful) (hlast : last ≤ 59)
    (h : countTo host (host.ofInt last) fuel (host.ofInt first) = some values)
    (hfirst : first ≤ last + 1) (number : host.Number) :
    number ∈ values ↔ ∃ v : ℕ, first ≤ v ∧ v ≤ last ∧ number = host.ofInt v := by
  induction fuel generalizing first values number with
  | zero => cases h
  | succ fuel ih =>
    unfold countTo at h
    rw [hhost.atMost_ofInt _ _ (isSafe_of_le (by omega)) (isSafe_of_le (by omega))] at h
    split_ifs at h with hle
    · obtain ⟨others, hothers, rfl⟩ := Option.map_eq_some_iff.mp h
      have hle : first ≤ last := by simpa using hle
      rw [hhost.next_ofInt _ (isSafe_of_le (by omega)), ← Nat.cast_succ] at hothers
      have hrest := ih hothers (by omega) number
      refine mem_cons.trans ((or_congr_right hrest).trans ?_)
      constructor
      · rintro (rfl | ⟨v, hv, hvle, rfl⟩)
        · exact ⟨first, le_rfl, hle, rfl⟩
        · exact ⟨v, by omega, hvle, rfl⟩
      · rintro ⟨v, hv, hvle, rfl⟩
        rcases hv.eq_or_lt with rfl | hlt
        · exact .inl rfl
        · exact .inr ⟨v, hlt, hvle, rfl⟩
    · cases h
      have hgt : last < first := by simpa using hle
      constructor
      · intro hnumber
        cases hnumber
      · rintro ⟨v, hv, hvle, -⟩
        omega

/-! ## Parts -/

theorem isSpace_of_isDigit {unit : CodeUnit} (h : isDigit unit) : isSpace unit = false := by
  unfold isDigit at h
  simp only [Bool.and_eq_true, decide_eq_true_eq] at h
  unfold isSpace
  simp
  omega

/-- The number of a text of digits. -/
theorem parseInt_decimal {text : JsString} (h : isDecimal text) :
    parseInt text = some (digitsValue text : ℤ) := by
  unfold isDecimal at h
  cases text with
  | nil => cases h
  | cons unit rest =>
    have hall : ∀ other ∈ unit :: rest, isDigit other := by simpa using h
    have hunit := hall unit mem_cons_self
    have hsign : unit ≠ codeUnit 45 ∧ unit ≠ codeUnit 43 := by
      constructor
      · rintro rfl
        cases hunit
      · rintro rfl
        cases hunit
    unfold parseInt
    rw [dropWhile_cons_of_neg (by simp [isSpace_of_isDigit hunit])]
    simp only [head?_cons, Option.some.injEq, hsign.1, hsign.2, or_self, if_false]
    rw [takeWhile_eq_self_iff.mpr hall]
    simp

variable {min max fuel : ℕ} {part : JsString}

theorem parsePart_mono (hle : fuel ≤ fuel') (h : parsePart host fuel min max part = some values) :
    parsePart host fuel' min max part = some values := by
  unfold parsePart at h ⊢
  split_ifs at h ⊢
  · exact h
  · exact h
  · split at h
    · simp only [Option.bind_eq_some_iff] at h ⊢
      obtain ⟨first, hfirst, last, hlast, hcount⟩ := h
      exact ⟨first, hfirst, last, hlast, countTo_mono hle hcount⟩
    · exact h

/-- A part is read, if the count of a range ends, exactly where something is read out of it. -/
theorem parsePart_reads_iff :
    (∃ fuel, (parsePart host fuel min max part).isSome) ↔ Readable host part := by
  unfold parsePart Readable
  split_ifs
  · simp
  · simp only [Option.isSome_bind]
    cases hstep : parseInt (part.drop 2) with
    | none => simp
    | some step =>
      by_cases hle : step ≤ 0
      · simp [hle]
      · simp [hle, not_le.mp hle]
  · split
    · next a b more hpieces =>
      cases hfirst : host.number? a with
      | none => simp
      | some first =>
        cases hlast : host.number? b with
        | none => simp
        | some last => simpa using countTo_ends_iff last first
    · simp

/-- A part of the grammar is read, for what it stands for. -/
theorem denotation_parsed (hhost : host.Lawful) (hmin : min ≤ max) (hmax : max ≤ 59)
    {denoted : Finset ℕ} (h : denotation? min max part = some denoted) :
    Readable host part ∧ denoted.Nonempty ∧ ∀ fuel values,
      parsePart host fuel min max part = some values →
        ∀ number, number ∈ values ↔ ∃ v ∈ denoted, number = host.ofInt (v : ℕ) := by
  unfold denotation? at h
  unfold Readable parsePart
  split_ifs at h ⊢ with hevery hstep hdigits
  · cases h
    refine ⟨trivial, Finset.nonempty_Icc.mpr hmin, ?_⟩
    intro fuel values hvalues number
    cases hvalues
    rw [mem_map]
    refine exists_congr fun v => and_congr ?_ eq_comm
    rw [mem_countBy (by omega) Nat.one_pos, Finset.mem_Icc]
    constructor
    · rintro ⟨k, rfl, hle⟩
      exact ⟨by omega, hle⟩
    · rintro ⟨hle, hmost⟩
      exact ⟨v - min, by omega, hmost⟩
  · cases h
    obtain ⟨hdecimal, hpos⟩ := hdigits
    rw [parseInt_decimal hdecimal]
    refine ⟨⟨_, rfl, by exact_mod_cast hpos⟩, ⟨min, by simp [hmin]⟩, ?_⟩
    intro fuel values hvalues number
    rw [Option.bind_some, if_neg (by omega)] at hvalues
    cases hvalues
    rw [mem_map]
    refine exists_congr fun v => and_congr ?_ eq_comm
    rw [Int.toNat_natCast, mem_countBy (by omega) hpos, Finset.mem_filter, Finset.mem_Icc]
    constructor
    · rintro ⟨k, rfl, hle⟩
      exact ⟨⟨Nat.le_add_right _ _, hle⟩, by simp⟩
    · rintro ⟨⟨hle, hmost⟩, k, hk⟩
      exact ⟨k, by rw [Nat.mul_comm]; omega, hmost⟩
  · split at h
    · next value hpieces =>
      split_ifs at h with hvalue
      cases h
      obtain rfl : value = part := by
        simpa [hpieces] using @List.intercalate_splitOn _ part _ _ (codeUnit 45)
      rw [hpieces]
      rw [parseInt_decimal hvalue.1]
      refine ⟨rfl, Finset.singleton_nonempty _, ?_⟩
      intro fuel values hvalues number
      cases hvalues
      simp
    · next a b hpieces =>
      split_ifs at h with hends
      cases h
      obtain ⟨hfirst, hlast, hle, hfirstLast, hmost⟩ := hends
      have hnumber {text : JsString} (htext : isDecimal text)
          (hvalue : digitsValue text ≤ max) :
          host.number? text = some (host.ofInt (digitsValue text)) :=
        hhost.number?_decimal text htext (isSafe_of_le (by omega))
      rw [hpieces]
      dsimp only
      rw [hnumber hfirst (by omega), hnumber hlast hmost]
      refine ⟨⟨_, _, rfl, rfl, ?_⟩, Finset.nonempty_Icc.mpr hfirstLast, ?_⟩
      · refine ⟨digitsValue b + 1 - digitsValue a, ?_⟩
        rw [hhost.iterate_next (by omega), hhost.atMost_ofInt _ _ (isSafe_of_le (by omega))
          (isSafe_of_le (by omega)), decide_eq_false_iff_not]
        omega
      · intro fuel values hvalues number
        rw [Option.bind_some, Option.bind_some] at hvalues
        have hvalues := mem_countTo hhost (by omega) hvalues (by omega) number
        simp only [hvalues, Finset.mem_Icc, and_assoc]
    · cases h

/-! ## Fields -/

variable {parts : List JsString}

theorem parseParts_mono (hle : fuel ≤ fuel') (h : parseParts host fuel min max parts = some values)
    :
    parseParts host fuel' min max parts = some values := by
  induction parts generalizing values with
  | nil => exact h
  | cons part rest ih =>
    unfold parseParts at h ⊢
    obtain ⟨first, hfirst, hrest⟩ := Option.bind_eq_some_iff.mp h
    obtain ⟨others, hothers, rfl⟩ := Option.map_eq_some_iff.mp hrest
    rw [parsePart_mono hle hfirst, ih hothers]
    rfl

theorem parseParts_reads_iff :
    (∃ fuel, (parseParts host fuel min max parts).isSome) ↔ ∀ part ∈ parts, Readable host part := by
  induction parts with
  | nil =>
    constructor
    · intro _ part hpart
      cases hpart
    · exact fun _ => ⟨0, rfl⟩
  | cons part rest ih =>
    rw [forall_mem_cons, ← ih, ← @parsePart_reads_iff host min max]
    constructor
    · rintro ⟨fuel, hfuel⟩
      obtain ⟨values, hvalues⟩ := Option.isSome_iff_exists.mp hfuel
      obtain ⟨first, hfirst, hrest⟩ := Option.bind_eq_some_iff.mp hvalues
      obtain ⟨others, hothers, -⟩ := Option.map_eq_some_iff.mp hrest
      exact ⟨⟨fuel, by rw [hfirst]; rfl⟩, ⟨fuel, by rw [hothers]; rfl⟩⟩
    · rintro ⟨⟨fuel, hfuel⟩, fuel', hfuel'⟩
      obtain ⟨first, hfirst⟩ := Option.isSome_iff_exists.mp hfuel
      obtain ⟨others, hothers⟩ := Option.isSome_iff_exists.mp hfuel'
      refine ⟨fuel + fuel', ?_⟩
      rw [parseParts, parsePart_mono (Nat.le_add_right _ _) hfirst,
        parseParts_mono (Nat.le_add_left _ _) hothers]
      rfl

/-- The parts of a field, as the grammar has them, give what they stand for. -/
theorem mem_parseParts (hhost : host.Lawful) (hmin : min ≤ max) (hmax : max ≤ 59)
    (h : parseParts host fuel min max parts = some values)
    (hparts : ∀ part ∈ parts, (denotation? min max part).isSome) (number : host.Number) :
    number ∈ values ↔ ∃ v : ℕ, (∃ part ∈ parts, ∃ denoted, denotation? min max part = some denoted ∧
      v ∈ denoted) ∧ number = host.ofInt v := by
  induction parts generalizing values with
  | nil =>
    cases h
    simp
  | cons part rest ih =>
    obtain ⟨first, hfirst, hrest⟩ := Option.bind_eq_some_iff.mp h
    obtain ⟨others, hothers, rfl⟩ := Option.map_eq_some_iff.mp hrest
    obtain ⟨hpart, hothersParts⟩ := forall_mem_cons.mp hparts
    obtain ⟨denoted, hdenoted⟩ := Option.isSome_iff_exists.mp hpart
    have hvalues := (denotation_parsed hhost hmin hmax hdenoted).2.2 fuel first hfirst number
    rw [mem_append, hvalues, ih hothers hothersParts]
    simp only [exists_mem_cons_iff, hdenoted, Option.some.injEq, exists_eq_left',
      or_and_right, exists_or]

variable {field : JsString}

theorem parseField_isSetOf (hhost : host.Lawful) (hmin : min ≤ max) (hmax : max ≤ 59)
    (h : parseField host fuel min max field = some values) (hfield : InField min max field) :
    IsSetOf host min max field values := by
  refine ⟨?_, mem_parseParts hhost hmin hmax h hfield⟩
  obtain ⟨part, hpart⟩ := exists_mem_of_ne_nil _ (splitOn_ne_nil (codeUnit 44) field)
  obtain ⟨denoted, hdenoted⟩ := Option.isSome_iff_exists.mp (hfield part hpart)
  obtain ⟨v, hv⟩ := (denotation_parsed hhost hmin hmax hdenoted).2.1
  exact ⟨v, part, hpart, denoted, hdenoted, hv⟩

/-! ## Expressions -/

/-- Something is read out of every part of a field. -/
def ReadableField (host : NumberHost) (_ _ : ℕ) (field : JsString) : Prop :=
  ∀ part ∈ field.splitOn (codeUnit 44), Readable host part

variable {expr : JsString}

theorem EachField.imp {holds holds' : ℕ → ℕ → JsString → Prop}
    (himp : ∀ min max field, min ≤ max → max ≤ 59 → holds min max field → holds' min max field)
    (h : EachField holds expr) : EachField holds' expr := by
  obtain ⟨m, hr, d, mo, wd, hfields, hm, hhr, hd, hmo, hwd⟩ := h
  exact ⟨m, hr, d, mo, wd, hfields, himp _ _ _ (by omega) le_rfl hm,
    himp _ _ _ (by omega) (by omega) hhr, himp _ _ _ (by omega) (by omega) hd,
    himp _ _ _ (by omega) (by omega) hmo, himp _ _ _ (by omega) (by omega) hwd⟩

/-- The fields of an expression that is parsed. -/
theorem parseCron_eq_some {fields : CronFields host.Number}
    (h : parseCron host fuel expr = some fields) :
    ∃ m h d mo wd, splitBlanks (trim expr) = [m, h, d, mo, wd] ∧
      parseField host fuel 0 59 m = some fields.minutes ∧
      parseField host fuel 0 23 h = some fields.hours ∧
      parseField host fuel 1 31 d = some fields.days ∧
      parseField host fuel 1 12 mo = some fields.months ∧
      parseField host fuel 0 6 wd = some fields.weekdays := by
  unfold parseCron at h
  split at h
  · next m hr d mo wd hfields =>
    simp only [Option.bind_eq_bind, Option.bind_eq_some_iff] at h
    obtain ⟨minutes, hm, hours, hhr, days, hd, months, hmo, weekdays, hwd, hall⟩ := h
    cases hall
    exact ⟨m, hr, d, mo, wd, hfields, hm, hhr, hd, hmo, hwd⟩
  · cases h

theorem isValidCron_iff :
    (∃ fuel, isValidCron host fuel expr) ↔ EachField (ReadableField host) expr := by
  constructor
  · rintro ⟨fuel, hvalid⟩
    obtain ⟨fields, hfields⟩ := Option.isSome_iff_exists.mp hvalid
    obtain ⟨m, hr, d, mo, wd, hsplit, hm, hhr, hd, hmo, hwd⟩ := parseCron_eq_some hfields
    have hread {min max : ℕ} {field : JsString} {values : List host.Number}
        (hvalues : parseField host fuel min max field = some values) :
        ReadableField host min max field :=
      parseParts_reads_iff.mp ⟨fuel, Option.isSome_iff_exists.mpr ⟨values, hvalues⟩⟩
    exact ⟨m, hr, d, mo, wd, hsplit, hread hm, hread hhr, hread hd, hread hmo, hread hwd⟩
  · rintro ⟨m, hr, d, mo, wd, hsplit, hm, hhr, hd, hmo, hwd⟩
    have hread {min max : ℕ} {field : JsString} (hfield : ReadableField host min max field) :
        ∃ fuel values, ∀ fuel' ≥ fuel, parseField host fuel' min max field = some values := by
      obtain ⟨fuel, hfuel⟩ := (@parseParts_reads_iff host min max _).mpr hfield
      obtain ⟨values, hvalues⟩ := Option.isSome_iff_exists.mp hfuel
      exact ⟨fuel, values, fun fuel' hle => parseParts_mono hle hvalues⟩
    obtain ⟨fuelM, minutes, hm⟩ := hread hm
    obtain ⟨fuelH, hours, hhr⟩ := hread hhr
    obtain ⟨fuelD, days, hd⟩ := hread hd
    obtain ⟨fuelMo, months, hmo⟩ := hread hmo
    obtain ⟨fuelWd, weekdays, hwd⟩ := hread hwd
    refine ⟨fuelM + fuelH + fuelD + fuelMo + fuelWd, ?_⟩
    unfold isValidCron parseCron
    rw [hsplit]
    dsimp only
    rw [hm _ (by omega), hhr _ (by omega), hd _ (by omega), hmo _ (by omega), hwd _ (by omega)]
    rfl

theorem readable_of_inField (hhost : host.Lawful) (hmin : min ≤ max) (hmax : max ≤ 59)
    (h : InField min max field) : ReadableField host min max field := by
  intro part hpart
  obtain ⟨denoted, hdenoted⟩ := Option.isSome_iff_exists.mp (h part hpart)
  exact (denotation_parsed hhost hmin hmax hdenoted).1

/-- An expression is parsed rightly exactly if it is one of the grammar or nothing is read out of
one of its parts. -/
theorem parsesRightly_iff (hhost : host.Lawful) (expr : JsString) :
    ParsesRightly host expr ↔ (EachField (ReadableField host) expr → InGrammar expr) := by
  constructor
  · intro h hreadable
    exact h.accepts.mp (isValidCron_iff.mpr hreadable)
  · intro h
    refine ⟨⟨fun hvalid => h (isValidCron_iff.mp hvalid), fun hgrammar => ?_⟩, ?_⟩
    · exact isValidCron_iff.mpr (hgrammar.imp fun _ _ _ => readable_of_inField hhost)
    · intro fuel fields hfields
      have hvalid : isValidCron host fuel expr := by
        rw [isValidCron, hfields]
        rfl
      obtain ⟨m, hr, d, mo, wd, hsplit, hm, hhr, hd, hmo, hwd⟩ := parseCron_eq_some hfields
      obtain ⟨m', hr', d', mo', wd', hsplit', hgm, hghr, hgd, hgmo, hgwd⟩ :=
        h (isValidCron_iff.mp ⟨fuel, hvalid⟩)
      cases hsplit.symm.trans hsplit'
      exact ⟨m, hr, d, mo, wd, hsplit, parseField_isSetOf hhost (by omega) le_rfl hm hgm,
        parseField_isSetOf hhost (by omega) (by omega) hhr hghr,
        parseField_isSetOf hhost (by omega) (by omega) hd hgd,
        parseField_isSetOf hhost (by omega) (by omega) hmo hgmo,
        parseField_isSetOf hhost (by omega) (by omega) hwd hgwd⟩

/-- Whole numbers, read from digits and from the empty text. -/
def wholeNumbers : NumberHost where
  Number := ℤ
  number? text := if text.all isDigit then some (digitsValue text : ℤ) else none
  ofInt n := n
  atMost i b := decide (i ≤ b)
  next i := i + 1

theorem lawful_wholeNumbers : wholeNumbers.Lawful where
  number?_decimal text htext _ := by exact if_pos (Bool.and_eq_true_iff.mp htext).2
  atMost_ofInt _ _ _ _ := rfl
  next_ofInt _ _ := rfl

theorem parsesRightly_iff_wholeNumbers :
    ParsesRightly wholeNumbers (ofString "*/5 9-17 * 1,6 1-5") ↔
      (EachField (ReadableField wholeNumbers) (ofString "*/5 9-17 * 1,6 1-5") →
        InGrammar (ofString "*/5 9-17 * 1,6 1-5")) :=
  parsesRightly_iff lawful_wholeNumbers _

/-- A range whose ends are the wrong way round is accepted, and never matches. -/
theorem reversedRange_accepted :
    ¬ ∀ (host : NumberHost), host.Lawful → ∀ expr, ParsesRightly host expr := by
  intro h
  have hright := h wholeNumbers lawful_wholeNumbers (ofString "5-1 * * * *")
  have hvalid : isValidCron wholeNumbers 1 (ofString "5-1 * * * *") := by decide +kernel
  obtain ⟨m, hr, d, mo, wd, hsplit, hm, -⟩ := hright.accepts.mp ⟨1, hvalid⟩
  obtain rfl : ofString "5-1" = m := by
    have hfields : splitBlanks (trim (ofString "5-1 * * * *")) =
        [ofString "5-1", ofString "*", ofString "*", ofString "*", ofString "*"] := by
      decide +kernel
    exact (List.cons.inj (hfields.symm.trans hsplit)).1
  have hnone : ¬ ∀ part ∈ (ofString "5-1").splitOn (codeUnit 44),
      (denotation? 0 59 part).isSome := by
    decide +kernel
  exact hnone hm

end Nobie.Scheduler
