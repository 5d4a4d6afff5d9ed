/-
# White space and case of well-formed texts

A text column of the database holds the well-formed text of a string. White space stands at
the same places in both, so that trimming and joining runs of it can be done before or after;
the same is asked of the host's lower case.
-/

import Nobie.Foundation.JsString

namespace Nobie.Foundation

open List

variable {unit : CodeUnit} (rest text : JsString)

namespace JsString

/-! ## Code points of well-formed texts -/

/-- A surrogate without its partner is replaced. -/
def scalarOf (point : CodePoint) : CodePoint :=
  if isSurrogate point then codePoint 0xFFFD else point

theorem not_isSurrogate_scalarOf (point : CodePoint) : ¬ isSurrogate (scalarOf point) := by
  unfold scalarOf
  split
  · decide
  · assumption

theorem toWellFormed_eq :
    toWellFormed text = ((codePoints text).map scalarOf).flatMap pointUnits := by
  rw [flatMap_map]
  refine flatMap_congr fun point _ => ?_
  unfold scalarOf
  split <;> rfl

theorem codePoints_pointUnits_append {point : CodePoint} (hpoint : ¬ isSurrogate point)
    (rest : JsString) : codePoints (pointUnits point ++ rest) = point :: codePoints rest := by
  unfold isSurrogate at hpoint
  unfold pointUnits
  have hbound := point.isLt
  split
  · rename_i hsmall
    have hval : (Fin.ofNat 0x10000 point.val).val = point.val := Nat.mod_eq_of_lt hsmall
    have hplain : isPlain (Fin.ofNat 0x10000 point.val) := by
      unfold isPlain isHighSurrogate isLowSurrogate
      rw [hval]
      omega
    rw [singleton_append, codePoints_cons hplain]
    exact congrArg (fun first => first :: codePoints rest) (Fin.ext hval)
  · rename_i hlarge
    have hhigh : (Fin.ofNat 0x10000 (0xD800 + (point.val - 0x10000) / 0x400)).val =
        0xD800 + (point.val - 0x10000) / 0x400 := Nat.mod_eq_of_lt (by omega)
    have hlow : (Fin.ofNat 0x10000 (0xDC00 + (point.val - 0x10000) % 0x400)).val =
        0xDC00 + (point.val - 0x10000) % 0x400 := Nat.mod_eq_of_lt (by omega)
    have hpair : isHighSurrogate (Fin.ofNat 0x10000 (0xD800 + (point.val - 0x10000) / 0x400)) ∧
        isLowSurrogate (Fin.ofNat 0x10000 (0xDC00 + (point.val - 0x10000) % 0x400)) := by
      unfold isHighSurrogate isLowSurrogate
      rw [hhigh, hlow]
      omega
    rw [cons_append, cons_append, nil_append, codePoints, if_pos hpair]
    refine congrArg (fun first => first :: codePoints rest) (Fin.ext ?_)
    unfold pairPoint
    rw [hhigh, hlow]
    refine (Nat.mod_eq_of_lt (by omega)).trans (by omega)

theorem codePoints_flatMap_pointUnits {points : List CodePoint}
    (hpoints : ∀ point ∈ points, ¬ isSurrogate point) :
    codePoints (points.flatMap pointUnits) = points := by
  induction points with
  | nil => rfl
  | cons point rest ih =>
    obtain ⟨hpoint, hrest⟩ := forall_mem_cons.mp hpoints
    rw [flatMap_cons, codePoints_pointUnits_append hpoint, ih hrest]

theorem codePoints_toWellFormed :
    codePoints (toWellFormed text) = (codePoints text).map scalarOf := by
  rw [toWellFormed_eq]
  refine codePoints_flatMap_pointUnits fun point hpoint => ?_
  obtain ⟨found, -, rfl⟩ := mem_map.mp hpoint
  exact not_isSurrogate_scalarOf found

@[simp]
theorem toWellFormed_toWellFormed : toWellFormed (toWellFormed text) = toWellFormed text := by
  rw [toWellFormed_eq (toWellFormed text), codePoints_toWellFormed, map_map, toWellFormed_eq]
  refine congrArg (List.flatMap pointUnits) (map_congr_left fun point _ => ?_)
  unfold Function.comp
  rw [scalarOf, if_neg (not_isSurrogate_scalarOf point)]

/-! ## White space -/

/-- White space stands where it stood. -/
theorem map_isSpace_toWellFormed : (toWellFormed text).map isSpace = text.map isSpace := by
  have hunits (point : CodePoint) :
      (pointUnits (scalarOf point)).map isSpace = (pointUnits point).map isSpace := by
    unfold scalarOf
    split
    · rename_i hsurrogate
      obtain ⟨hfirst, hlast⟩ := hsurrogate
      have hval : (Fin.ofNat 0x10000 point.val).val = point.val := Nat.mod_eq_of_lt (by omega)
      have hspace : isSpace (Fin.ofNat 0x10000 point.val) = false := by
        unfold isSpace
        rw [hval]
        simp
        omega
      rw [show pointUnits point = [Fin.ofNat 0x10000 point.val] from if_pos (by omega),
        map_singleton, hspace]
      decide
    · rfl
  rw [toWellFormed_eq]
  conv => rhs; rw [← flatMap_pointUnits text]
  rw [flatMap_map, map_flatMap, map_flatMap]
  exact flatMap_congr fun point _ => hunits point

theorem toWellFormed_eq_nil {text : JsString} : toWellFormed text = [] ↔ text = [] := by
  have hlength := congrArg List.length (map_isSpace_toWellFormed text)
  rw [length_map, length_map] at hlength
  rw [← length_eq_zero_iff, hlength, length_eq_zero_iff]

theorem isPlain_of_isSpace (hspace : isSpace unit) : isPlain unit := by
  unfold isSpace at hspace
  simp at hspace
  unfold isPlain isHighSurrogate isLowSurrogate
  omega

theorem toWellFormed_cons (hunit : isPlain unit) (rest : JsString) :
    toWellFormed (unit :: rest) = unit :: toWellFormed rest :=
  toWellFormed_append_cons hunit [] rest

/-- The first unit of a well-formed text is white space where that of the text is. -/
theorem dropWhile_toWellFormed :
    (toWellFormed text).dropWhile isSpace = toWellFormed (text.dropWhile isSpace) := by
  induction text with
  | nil => rfl
  | cons unit rest ih =>
    cases hspace : isSpace unit with
    | true =>
      rw [toWellFormed_cons (isPlain_of_isSpace hspace), dropWhile_cons_of_pos hspace,
        dropWhile_cons_of_pos hspace, ih]
    | false =>
      have hmap := map_isSpace_toWellFormed (unit :: rest)
      rw [dropWhile_cons_of_neg (by rw [hspace]; exact Bool.false_ne_true)]
      cases hformed : toWellFormed (unit :: rest) with
      | nil => exact absurd (toWellFormed_eq_nil.mp hformed) (cons_ne_nil _ _)
      | cons first others =>
        rw [hformed, map_cons, map_cons, hspace] at hmap
        rw [dropWhile_cons_of_neg]
        rw [(List.cons.inj hmap).1]
        exact Bool.false_ne_true

theorem rdropWhile_toWellFormed :
    (toWellFormed text).rdropWhile isSpace = toWellFormed (text.rdropWhile isSpace) := by
  induction text using List.reverseRecOn with
  | nil => rfl
  | append_singleton front unit ih =>
    cases hspace : isSpace unit with
    | true =>
      rw [toWellFormed_append_cons (isPlain_of_isSpace hspace) front [],
        show toWellFormed [] = [] from rfl, rdropWhile_concat_pos _ _ _ hspace,
        rdropWhile_concat_pos _ _ _ hspace, ih]
    | false =>
      have hmap := map_isSpace_toWellFormed (front ++ [unit])
      rw [rdropWhile_concat_neg _ _ _ (by rw [hspace]; exact Bool.false_ne_true)]
      obtain hformed | ⟨others, last, hformed⟩ := eq_nil_or_concat (toWellFormed (front ++ [unit]))
      · exact absurd (toWellFormed_eq_nil.mp hformed) (by simp)
      · rw [hformed, map_concat, concat_eq_append, map_append, map_singleton] at hmap
        have hlast := (append_inj' hmap rfl).2
        rw [singleton_inj, hspace] at hlast
        rw [hformed, concat_eq_append, rdropWhile_concat_neg]
        rw [hlast]
        exact Bool.false_ne_true

theorem trim_toWellFormed : trim (toWellFormed text) = toWellFormed (trim text) := by
  unfold trim
  rw [dropWhile_toWellFormed, rdropWhile_toWellFormed]

/-- `text.replace(/\s+/gu, " ")`; the flag says whether a run of white space has been told. -/
def collapseSpaces : Bool → JsString → JsString
  | _, [] => []
  | inSpace, unit :: rest =>
    if isSpace unit then
      if inSpace then collapseSpaces true rest else codeUnit 0x20 :: collapseSpaces true rest
    else unit :: collapseSpaces false rest

theorem collapseSpaces_append {word : JsString} (hword : ∀ unit ∈ word, isSpace unit = false)
    (inSpace : Bool) (rest : JsString) :
    collapseSpaces inSpace (word ++ rest) =
      word ++ collapseSpaces (inSpace && word.isEmpty) rest := by
  induction word generalizing inSpace with
  | nil => simp
  | cons unit word ih =>
    obtain ⟨hunit, hrest⟩ := forall_mem_cons.mp hword
    rw [cons_append, collapseSpaces, hunit, if_neg Bool.false_ne_true, ih hrest]
    simp

theorem collapseSpaces_toWellFormed (inSpace : Bool) (text : JsString) :
    collapseSpaces inSpace (toWellFormed text) = toWellFormed (collapseSpaces inSpace text) := by
  induction hlength : text.length using Nat.strong_induction_on generalizing inSpace text with
  | _ length ih =>
    have hword : ∀ unit ∈ text.takeWhile (fun unit => !isSpace unit), isSpace unit = false := by
      intro unit hunit
      have hfalse := mem_takeWhile_imp hunit
      rwa [Bool.not_eq_true'] at hfalse
    have hformed {word : JsString} (hword : ∀ unit ∈ word, isSpace unit = false) :
        ∀ unit ∈ toWellFormed word, isSpace unit = false := by
      intro unit hunit
      have hmem : isSpace unit ∈ word.map isSpace := by
        rw [← map_isSpace_toWellFormed]
        exact mem_map_of_mem hunit
      obtain ⟨found, hfound, hsame⟩ := mem_map.mp hmem
      rw [← hsame, hword found hfound]
    have hsplit := takeWhile_append_dropWhile (p := fun unit => !isSpace unit) (l := text)
    generalize text.takeWhile (fun unit => !isSpace unit) = word at hsplit hword
    cases hrest : text.dropWhile (fun unit => !isSpace unit) with
    | nil =>
      rw [hrest, append_nil] at hsplit
      subst hsplit
      have hplain := collapseSpaces_append hword inSpace []
      have hplain' := collapseSpaces_append (hformed hword) inSpace []
      rw [append_nil, collapseSpaces, append_nil] at hplain hplain'
      rw [hplain, hplain']
    | cons space rest =>
      have hspace : isSpace space := by
        have hhead := head_dropWhile_not (fun unit => !isSpace unit)
          (by rw [hrest]; exact cons_ne_nil _ _)
        simpa [hrest] using hhead
      rw [hrest] at hsplit
      subst hsplit
      have hshorter : rest.length < length := by
        rw [← hlength]
        simp
        omega
      have hempty : (toWellFormed word).isEmpty = word.isEmpty := by
        rw [Bool.eq_iff_iff, List.isEmpty_iff, List.isEmpty_iff, toWellFormed_eq_nil]
      rw [toWellFormed_append_cons (isPlain_of_isSpace hspace),
        collapseSpaces_append (hformed hword), collapseSpaces_append hword, hempty,
        collapseSpaces, collapseSpaces, if_pos hspace, if_pos hspace]
      split
      · rename_i hin
        obtain ⟨-, hnil⟩ := Bool.and_eq_true_iff.mp hin
        rw [List.isEmpty_iff.mp hnil]
        exact ih _ hshorter true rest rfl
      · rw [toWellFormed_append_cons (by decide), ih _ hshorter true rest rfl]

end JsString

/-! ## Case -/

/-- The host's `String.prototype.toLowerCase`. A surrogate without its partner has no case
and no part in the case of what is around it, and neither has the replacement character. -/
structure CaseHost where
  toLowerCase : JsString → JsString
  toLowerCase_toWellFormed : ∀ text,
    toLowerCase (JsString.toWellFormed text) = JsString.toWellFormed (toLowerCase text)

/-! ## A change of case that leaves the surrogates alone -/

namespace JsString

/-- The next unit does not complete a pair. -/
def Alone (unit : CodeUnit) (rest : JsString) : Prop :=
  ∀ next others, rest = next :: others → ¬ (isHighSurrogate unit ∧ isLowSurrogate next)

theorem codePoints_cons_alone {rest : JsString} (halone : Alone unit rest) :
    codePoints (unit :: rest) = unitPoint unit :: codePoints rest := by
  cases rest with
  | nil => rfl
  | cons next others => rw [codePoints, if_neg (halone next others rfl)]

theorem toWellFormed_lone {rest : JsString} (hunit : ¬ isPlain unit) (halone : Alone unit rest) :
    toWellFormed (unit :: rest) = codeUnit 0xFFFD :: toWellFormed rest := by
  have hpoint : isSurrogate (unitPoint unit) := by
    have hval : (unitPoint unit).val = unit.val := rfl
    unfold isPlain isHighSurrogate isLowSurrogate at hunit
    unfold isSurrogate
    omega
  unfold toWellFormed
  rw [codePoints_cons_alone halone, flatMap_cons, if_pos hpoint]
  rfl

theorem toWellFormed_pair {high low : CodeUnit} (hpair : isHighSurrogate high ∧ isLowSurrogate low)
    (rest : JsString) : toWellFormed (high :: low :: rest) = high :: low :: toWellFormed rest := by
  have hpoint : ¬ isSurrogate (pairPoint high low) := by
    obtain ⟨⟨_, _⟩, _, _⟩ := hpair
    have hval : (pairPoint high low).val = 0x10000 + (high.val - 0xD800) * 0x400 +
      (low.val - 0xDC00) := Nat.mod_eq_of_lt (by omega)
    unfold isSurrogate
    omega
  unfold toWellFormed
  rw [codePoints, if_pos hpair, flatMap_cons, if_neg hpoint, pointUnits_pairPoint hpair.1 hpair.2]
  rfl

section Change

variable {change : CodeUnit → CodeUnit}
  (hlow : ∀ unit : CodeUnit, unit.val < 0x80 → (change unit).val < 0x80)
  (hhigh : ∀ unit : CodeUnit, 0x80 ≤ unit.val → change unit = unit)

include hhigh

theorem change_surrogate (hunit : ¬ isPlain unit) : change unit = unit := by
  refine hhigh unit ?_
  by_contra hsmall
  exact hunit (isPlain_of_lt (by omega))

include hlow

theorem change_plain (hunit : isPlain unit) : isPlain (change unit) := by
  by_cases hsmall : unit.val < 0x80
  · exact isPlain_of_lt ((hlow unit hsmall).trans (by omega))
  · rw [hhigh unit (by omega)]
    exact hunit

theorem alone_map {rest : JsString} (halone : Alone unit rest) : Alone unit (rest.map change) := by
  rintro next others hnext hpair
  obtain ⟨first, tail, rfl, rfl, -⟩ := map_eq_cons_iff.mp hnext
  by_cases hfirst : isPlain first
  · exact (change_plain hlow hhigh hfirst).2 hpair.2
  · rw [change_surrogate hhigh hfirst] at hpair
    exact halone first tail rfl hpair

/-- The units of the basic alphabet can be changed before or after. -/
theorem toWellFormed_map (text : JsString) :
    toWellFormed (text.map change) = (toWellFormed text).map change := by
  have hunit (unit : CodeUnit) (rest : JsString) (halone : Alone unit rest)
      (hrest : toWellFormed (rest.map change) = (toWellFormed rest).map change) :
      toWellFormed ((unit :: rest).map change) = (toWellFormed (unit :: rest)).map change := by
    by_cases hcase : isPlain unit
    · rw [map_cons, toWellFormed_cons (change_plain hlow hhigh hcase),
        toWellFormed_cons hcase, hrest, map_cons]
    · rw [map_cons, change_surrogate hhigh hcase,
        toWellFormed_lone hcase (alone_map hlow hhigh halone), toWellFormed_lone hcase halone,
        hrest, map_cons, hhigh (codeUnit 0xFFFD) (by decide)]
  fun_induction codePoints text with
  | case1 => rfl
  | case2 unit => exact hunit unit [] (fun _ _ hnext => absurd hnext.symm (cons_ne_nil _ _)) rfl
  | case3 high low rest hpair ih =>
    have hfirst := change_surrogate hhigh fun hplain => hplain.1 hpair.1
    have hsecond := change_surrogate hhigh fun hplain => hplain.2 hpair.2
    rw [map_cons, map_cons, hfirst, hsecond, toWellFormed_pair hpair,
      toWellFormed_pair hpair, ih, map_cons, map_cons, hfirst, hsecond]
  | case4 unit next rest hpair ih =>
    refine hunit unit (next :: rest) (fun first others hfirst => ?_) ih
    obtain ⟨rfl, -⟩ := List.cons.inj hfirst
    exact hpair

end Change

end JsString

/-- Lower case of the basic alphabet. -/
def asciiCase : CaseHost where
  toLowerCase text := text.map fun unit =>
    if 65 ≤ unit.val ∧ unit.val ≤ 90 then JsString.codeUnit (unit.val + 32) else unit
  toLowerCase_toWellFormed text := by
    refine (JsString.toWellFormed_map (fun unit hunit => ?_) (fun unit hunit => ?_) text).symm
    · split
      · have hval : (JsString.codeUnit (unit.val + 32)).val = unit.val + 32 :=
          Nat.mod_eq_of_lt (by omega)
        omega
      · exact hunit
    · rw [if_neg (by omega)]

end Nobie.Foundation
