/-
# Registered names read back

A segment of a registered name has no two underscores side by side and none at its ends, so
that the name falls apart again where it was put together. The normalization of the lists leaves
segments, registered names and pairs of segments with a colon between them alone, and these
three are told apart by their colons and their doubled underscores.
-/

import Mathlib.Data.List.Chain
import Nobie.Security.CapabilityIsolation

namespace Nobie.Security

open Foundation Mcp List JsString

/-! ## Runs that are replaced -/

variable {unit : CodeUnit}

section Runs

variable {keep : CodeUnit → Bool} {text : JsString}

theorem replaceRuns_of_forall (htext : ∀ unit ∈ text, keep unit) (inRun : Bool) :
    replaceRuns keep inRun text = text := by
  induction text generalizing inRun with
  | nil => rfl
  | cons unit rest ih =>
    obtain ⟨hunit, hrest⟩ := forall_mem_cons.mp htext
    rw [replaceRuns, if_pos hunit, ih hrest]

theorem mem_replaceRuns (hkeep : keep unit) (hunit : unit ∈ text) (inRun : Bool) :
    unit ∈ replaceRuns keep inRun text := by
  induction text generalizing inRun with
  | nil => cases hunit
  | cons first rest ih =>
    unfold replaceRuns
    obtain rfl | hrest := mem_cons.mp hunit
    · rw [if_pos hkeep]
      exact mem_cons_self
    · split
      · exact mem_cons_of_mem _ (ih hrest false)
      · split
        · exact ih hrest true
        · exact mem_cons_of_mem _ (ih hrest true)

theorem keep_of_mem_replaceRuns {inRun : Bool} (hunit : unit ∈ replaceRuns keep inRun text) :
    keep unit ∧ unit ∈ text ∨ unit = underscore := by
  induction text generalizing inRun with
  | nil => cases hunit
  | cons first rest ih =>
    have hlater {inRun : Bool} (hrest : unit ∈ replaceRuns keep inRun rest) :
        keep unit ∧ unit ∈ first :: rest ∨ unit = underscore :=
      (ih hrest).imp_left (And.imp_right (mem_cons_of_mem _))
    unfold replaceRuns at hunit
    split at hunit
    · rename_i hkeep
      obtain rfl | hrest := mem_cons.mp hunit
      · exact Or.inl ⟨hkeep, mem_cons_self⟩
      · exact hlater hrest
    · split at hunit
      · exact hlater hunit
      · obtain rfl | hrest := mem_cons.mp hunit
        · exact Or.inr rfl
        · exact hlater hrest

/-- The two units are not both underscores. -/
def Apart (first second : CodeUnit) : Prop := ¬ (first = underscore ∧ second = underscore)

/-- No two underscores come out side by side if none is kept. -/
theorem isChain_replaceRuns (hkeep : keep underscore = false) (inRun : Bool) :
    (replaceRuns keep inRun text).IsChain Apart ∧
      (inRun → (replaceRuns keep inRun text).head? ≠ some underscore) := by
  induction text generalizing inRun with
  | nil => exact ⟨isChain_nil, fun _ => by simp [replaceRuns]⟩
  | cons unit rest ih =>
    unfold replaceRuns
    split
    · rename_i hunit
      have hother : unit ≠ underscore := by
        rintro rfl
        rw [hkeep] at hunit
        cases hunit
      refine ⟨isChain_cons.mpr ⟨fun _ _ hboth => hother hboth.1, (ih false).1⟩, ?_⟩
      exact fun _ hhead => hother (Option.some.inj hhead)
    · split
      · exact ⟨(ih true).1, fun _ => (ih true).2 rfl⟩
      · rename_i hinRun
        refine ⟨isChain_cons.mpr ⟨fun next hnext hboth => ?_, (ih true).1⟩, fun h =>
          absurd h hinRun⟩
        exact (ih true).2 rfl (hboth.2 ▸ hnext)

end Runs

/-! ## Segments -/

/-- What the sanitizer makes of a name. -/
structure IsSegment (text : JsString) : Prop where
  units : ∀ unit ∈ text, isLetterOrDigit unit ∨ unit = underscore
  apart : text.IsChain Apart
  last : text.getLast? ≠ some underscore
  filled : text ≠ []

theorem isSegment_tool : IsSegment (ofString "tool") where
  units unit hunit := by
    have hall : (ofString "tool").all isLetterOrDigit := by decide
    exact Or.inl (all_eq_true.mp hall unit hunit)
  apart := by
    unfold Apart
    decide
  last := by decide
  filled := by decide

theorem isSegment_sanitizeSegment (host : CaseHost) (value : JsString) :
    IsSegment (sanitizeSegment host value) := by
  unfold sanitizeSegment
  dsimp only
  generalize host.toLowerCase (trim value) = lowered
  split
  · exact isSegment_tool
  · rename_i hfilled
    have hwithin : stripUnderscores (replaceRuns isLetterOrDigit false lowered) <:+:
        replaceRuns isLetterOrDigit false lowered :=
      ((List.rdropWhile_prefix _ _).isInfix).trans (dropWhile_suffix _).isInfix
    refine ⟨fun unit hunit =>
      (keep_of_mem_replaceRuns (hwithin.subset hunit)).imp_left And.left, ?_, ?_, hfilled⟩
    · exact List.IsChain.infix (isChain_replaceRuns (by decide) false).1 hwithin
    · intro hlast
      have hnot := rdropWhile_last_not _ _ hfilled
      rw [getLast?_eq_some_getLast hfilled] at hlast
      exact hnot (decide_eq_true (Option.some.inj hlast))

/-! ## Reading a registered name -/

theorem splitAtUnderscores_of_isChain {text : JsString} (htext : text.IsChain Apart) :
    splitAtUnderscores text = [text] := by
  fun_induction splitAtUnderscores text with
  | case1 | case2 => rfl
  | case3 unit next rest hboth ih => exact absurd hboth (isChain_cons_cons.mp htext).1
  | case4 unit next rest hboth ih =>
    rw [ih (isChain_cons_cons.mp htext).2]
    rfl

/-- The first piece is what stands before the first two underscores. -/
theorem splitAtUnderscores_append {text : JsString} (htext : text.IsChain Apart)
    (hlast : text.getLast? ≠ some underscore) (rest : JsString) :
    splitAtUnderscores (text ++ underscore :: underscore :: rest) =
      text :: splitAtUnderscores rest := by
  induction text with
  | nil => rw [nil_append, splitAtUnderscores, if_pos ⟨rfl, rfl⟩]
  | cons unit others ih =>
    cases others with
    | nil =>
      have hunit : unit ≠ underscore := fun h => hlast (h ▸ rfl)
      rw [singleton_append, splitAtUnderscores, if_neg fun h => hunit h.1,
        splitAtUnderscores, if_pos ⟨rfl, rfl⟩]
      rfl
    | cons next others =>
      obtain ⟨hapart, hrest⟩ := isChain_cons_cons.mp htext
      have hinner := ih hrest (by rwa [getLast?_cons_cons] at hlast)
      rw [cons_append] at hinner
      rw [cons_append, cons_append, splitAtUnderscores, if_neg hapart, hinner]
      rfl

theorem isSpace_of_isTokenUnit (hunit : isTokenUnit unit) : isSpace unit = false := by
  have hcolon : colon.val = 58 := by decide
  have hunderscore : underscore.val = 95 := by decide
  have hhyphen : hyphen.val = 45 := by decide
  unfold isTokenUnit isLetterOrDigit at hunit
  simp only [Bool.or_eq_true, Bool.and_eq_true, decide_eq_true_eq, Fin.ext_iff, hcolon,
    hunderscore, hhyphen] at hunit
  unfold isSpace
  simp only [Bool.or_eq_false_iff, Bool.and_eq_false_iff, decide_eq_false_iff_not,
    beq_eq_false_iff_ne]
  omega

theorem isTokenUnit_colon : isTokenUnit colon := by decide

theorem isTokenUnit_underscore : isTokenUnit underscore := by decide

namespace IsSegment

variable {text : JsString}

theorem token (h : IsSegment text) (hunit : unit ∈ text) : isTokenUnit unit := by
  obtain hkept | rfl := h.units unit hunit
  · unfold isTokenUnit
    rw [hkept]
    rfl
  · exact isTokenUnit_underscore

theorem colon_not_mem (h : IsSegment text) : colon ∉ text := by
  intro hcolon
  obtain hkept | hsame := h.units colon hcolon
  · cases hkept
  · cases hsame

theorem nonEmpty_eq (h : IsSegment text) : nonEmpty (some text) = some text := by
  have htrim : trim text = text :=
    trim_of_forall fun unit hunit => isSpace_of_isTokenUnit (h.token hunit)
  have hblank : isBlank (some text) = false := by
    unfold isBlank
    rw [Option.getD_some, htrim]
    exact decide_eq_false h.filled
  rw [nonEmpty, hblank, Option.map_some, htrim]
  rfl

end IsSegment

/-- A name that is put together of two segments. -/
def registeredNameOf (server tool : JsString) : JsString :=
  ofString "mcp" ++ underscore :: underscore :: server ++ underscore :: underscore :: tool

theorem toRegisteredToolName_eq (host : CaseHost) (serverName toolName : JsString) :
    toRegisteredToolName host serverName toolName =
      registeredNameOf (sanitizeSegment host serverName) (sanitizeSegment host toolName) := by
  have hstart : ofString "mcp__" = ofString "mcp" ++ [underscore, underscore] := by decide
  have hmiddle : ofString "__" = [underscore, underscore] := by decide
  rw [toRegisteredToolName, registeredNameOf, hstart, hmiddle]
  simp only [append_assoc, cons_append, nil_append]

theorem isChain_mcp : (ofString "mcp").IsChain Apart := by
  unfold Apart
  decide

theorem startsWith_append (start rest : JsString) : startsWith (start ++ rest) start := by
  unfold startsWith
  rw [take_left]
  exact decide_eq_true rfl

section Read

variable {server tool : JsString} (hserver : IsSegment server) (htool : IsSegment tool)

include hserver htool

theorem splitAtUnderscores_registeredNameOf :
    splitAtUnderscores (registeredNameOf server tool) = [ofString "mcp", server, tool] := by
  rw [registeredNameOf, append_assoc, cons_append, cons_append,
    splitAtUnderscores_append isChain_mcp (by decide),
    splitAtUnderscores_append hserver.apart hserver.last, splitAtUnderscores_of_isChain htool.apart]

/-- A registered name is read as what it was put together of. -/
theorem parse_registeredNameOf :
    parseMcpRegisteredToolName (registeredNameOf server tool) =
      some ⟨registeredNameOf server tool, server, tool⟩ := by
  have hstart : startsWith (registeredNameOf server tool) (ofString "mcp__") := by
    have hsplit : registeredNameOf server tool = ofString "mcp__" ++
        (server ++ underscore :: underscore :: tool) := by
      have hbegins : ofString "mcp__" = ofString "mcp" ++ [underscore, underscore] := by decide
      rw [registeredNameOf, hbegins]
      simp only [append_assoc, cons_append, nil_append]
    rw [hsplit]
    exact startsWith_append _ _
  rw [parseMcpRegisteredToolName, hstart, splitAtUnderscores_registeredNameOf hserver htool]
  simp only [Bool.not_true, Bool.false_eq_true, if_false, joinWithUnderscores, hserver.nonEmpty_eq,
    htool.nonEmpty_eq]

theorem token_of_mem_registeredNameOf (hunit : unit ∈ registeredNameOf server tool) :
    isTokenUnit unit := by
  have hstart : ((ofString "mcp") ++ [underscore, underscore]).all isTokenUnit := by decide
  have hsplit : registeredNameOf server tool = (ofString "mcp" ++
      [underscore, underscore]) ++ server ++ underscore :: underscore :: tool := by
    rw [registeredNameOf]
    simp only [append_assoc, cons_append, nil_append]
  rw [hsplit, mem_append, mem_append, mem_cons, mem_cons] at hunit
  obtain (hunit | hunit) | rfl | rfl | hunit := hunit
  · exact all_eq_true.mp hstart unit hunit
  · exact hserver.token hunit
  · exact isTokenUnit_underscore
  · exact isTokenUnit_underscore
  · exact htool.token hunit

theorem colon_not_mem_registeredNameOf : colon ∉ registeredNameOf server tool := by
  rw [registeredNameOf, mem_append, mem_append, mem_cons, mem_cons, mem_cons, mem_cons]
  rintro ((h | h | h | h) | h | h | h)
  · exact absurd h (by decide)
  · cases h
  · cases h
  · exact hserver.colon_not_mem h
  · cases h
  · cases h
  · exact htool.colon_not_mem h

end Read

theorem not_isChain_registeredNameOf (server tool : JsString) :
    ¬ (registeredNameOf server tool).IsChain Apart := by
  intro hchain
  have hwithin : [underscore, underscore] <:+: registeredNameOf server tool :=
    ⟨ofString "mcp", server ++ underscore :: underscore :: tool, by
      rw [registeredNameOf]
      simp only [append_assoc, cons_append, nil_append]⟩
  have hpair := List.IsChain.infix hchain hwithin
  exact (isChain_cons_cons.mp hpair).1 ⟨rfl, rfl⟩

/-! ## Tokens -/

section Tokens

variable (host : TokenHost) {text : JsString}

theorem normalizeToken_of_token (htext : ∀ unit ∈ text, isTokenUnit unit) :
    normalizeToken host text = text := by
  have htrim : trim text = text :=
    trim_of_forall fun unit hunit => isSpace_of_isTokenUnit (htext unit hunit)
  rw [normalizeToken, htrim, host.toLowerCase_of_token text htext, replaceRuns_of_forall htext]

theorem colon_mem_normalizeToken (hcolon : colon ∈ text) : colon ∈ normalizeToken host text :=
  mem_replaceRuns isTokenUnit_colon
    (host.colon_mem_toLowerCase _ (mem_trim (by decide) hcolon)) false

theorem normalizeToken_trim (host : CaseHost) (text : JsString) :
    normalizeToken host (trim text) = normalizeToken host text := by
  rw [normalizeToken, trim_trim, normalizeToken]

end Tokens

end Nobie.Security
