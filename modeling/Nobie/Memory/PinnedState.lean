/-
# Pinned state over compactions

What a compaction pins is read again from the lines of the window. The blocks that a compaction
writes list their items behind a bullet, and no key is read behind a bullet: an item goes on only
as long as a message with its line is in the kept tail. The blocks never forbid the next
compaction, unless a text of the model's summary has such a line behind a line break.
-/

import Mathlib.Data.List.Chain
import Nobie.Foundation.Transition
import Nobie.Memory.Compaction
import Nobie.Memory.ToolPairs

namespace Nobie.Memory

open Foundation List JsString

/-! ## Visible lines

Normalizing a text moves and drops white space only. -/

/-- What can be seen of a text. -/
def visible (text : JsString) : JsString := text.filter fun unit => !isSpace unit

/-- A line that shows something; a line that is left out shows nothing. -/
def shown : Option JsString → List JsString
  | none | some [] => []
  | some line => [line]

/-- What can be seen of the lines of a text, behind what has been seen of the first line; the
first line is left out if that is nothing at all. -/
def visibleLines (seen : Option JsString) : JsString → List JsString
  | [] => shown seen
  | unit :: rest =>
    if unit = newline then shown seen ++ visibleLines (some []) rest
    else if isSpace unit then visibleLines seen rest
    else visibleLines (seen.map (· ++ [unit])) rest

theorem isSpace_newline : isSpace newline := by decide

theorem isSpace_blank : isSpace blank := by decide

variable (seen : Option JsString) (rest : JsString) {line : JsString} (text : JsString)

theorem visibleLines_newline :
    visibleLines seen (newline :: rest) = shown seen ++ visibleLines (some []) rest :=
  if_pos rfl

variable {unit : CodeUnit} {spaces : JsString}

theorem visibleLines_space (hspace : isSpace unit) (hne : unit ≠ newline) :
    visibleLines seen (unit :: rest) = visibleLines seen rest := by
  rw [visibleLines, if_neg hne, if_pos hspace]

theorem visibleLines_unit (hvisible : isSpace unit = false) :
    visibleLines seen (unit :: rest) = visibleLines (seen.map (· ++ [unit])) rest := by
  have hne : unit ≠ newline := by
    rintro rfl
    cases hvisible.symm.trans isSpace_newline
  rw [visibleLines, if_neg hne, if_neg (by rw [hvisible]; exact Bool.false_ne_true)]

/-! ## Texts that are put together -/

theorem visibleLines_append_newline (first second : JsString) :
    visibleLines seen (first ++ newline :: second) =
      visibleLines seen first ++ visibleLines (some []) second := by
  induction first generalizing seen with
  | nil => exact visibleLines_newline seen second
  | cons unit rest ih =>
    rw [cons_append, visibleLines, visibleLines]
    split
    · rw [ih, append_assoc]
    · split
      · exact ih seen
      · exact ih _

/-- A text without a line break goes on with the line. -/
theorem visibleLines_append_of_line (hline : newline ∉ line) (rest : JsString) :
    visibleLines seen (line ++ rest) = visibleLines (seen.map (· ++ visible line)) rest := by
  induction line generalizing seen with
  | nil => cases seen <;> simp [visible]
  | cons unit others ih =>
    rw [mem_cons, not_or] at hline
    rw [cons_append, visibleLines, if_neg (Ne.symm hline.1), visible, filter_cons]
    cases isSpace unit with
    | true => exact ih seen hline.2
    | false =>
      refine (ih (seen.map (· ++ [unit])) hline.2).trans ?_
      rw [Option.map_map]
      refine congrArg (fun change => visibleLines (Option.map change seen) rest)
        (funext fun text => ?_)
      exact append_assoc text [unit] (visible others)

theorem visibleLines_of_line (hline : newline ∉ line) :
    visibleLines seen line = shown (seen.map (· ++ visible line)) := by
  have h := visibleLines_append_of_line seen hline []
  rwa [append_nil] at h

theorem visibleLines_spaces (hspaces : ∀ unit ∈ spaces, isSpace unit) :
    visibleLines seen spaces = shown seen := by
  induction spaces generalizing seen with
  | nil => rfl
  | cons unit rest ih =>
    have hrest (other : Option JsString) := ih other fun unit hunit =>
      hspaces unit (mem_cons_of_mem _ hunit)
    by_cases hbreak : unit = newline
    · rw [hbreak, visibleLines_newline, hrest]
      exact append_nil _
    · rw [visibleLines_space seen rest (hspaces unit mem_cons_self) hbreak, hrest]

theorem visibleLines_append_spaces (hspaces : ∀ unit ∈ spaces, isSpace unit) :
    visibleLines seen (text ++ spaces) = visibleLines seen text := by
  induction text generalizing seen with
  | nil => exact visibleLines_spaces seen hspaces
  | cons unit rest ih =>
    rw [cons_append, visibleLines, visibleLines]
    split
    · rw [ih]
    · split
      · exact ih seen
      · exact ih _

/-- The lines behind the first one are lines. -/
theorem mem_visibleLines_of_none {text : JsString} (h : line ∈ visibleLines none text)
    (seen : Option JsString) : line ∈ visibleLines seen text := by
  induction text generalizing seen with
  | nil => cases h
  | cons unit rest ih =>
    rw [visibleLines] at h ⊢
    split at h
    · next hbreak =>
      rw [if_pos hbreak]
      exact mem_append_right _ h
    · next hbreak =>
      rw [if_neg hbreak]
      split at h
      · next hspace =>
        rw [if_pos hspace]
        exact ih h seen
      · next hspace =>
        rw [if_neg hspace]
        exact ih h _

/-- A line goes on from what has been seen, or stands behind the first one. -/
theorem prefix_or_mem_of_mem_visibleLines {seen text : JsString}
    (h : line ∈ visibleLines (some seen) text) : seen <+: line ∨ line ∈ visibleLines none text := by
  induction text generalizing seen with
  | nil =>
    cases seen with
    | nil => cases h
    | cons unit rest =>
      obtain rfl := mem_singleton.mp h
      exact .inl (prefix_refl _)
  | cons unit rest ih =>
    rw [visibleLines] at h ⊢
    split at h
    · next hbreak =>
      rw [if_pos hbreak]
      rcases mem_append.mp h with hfirst | hrest
      · cases seen with
        | nil => cases hfirst
        | cons first others =>
          obtain rfl := mem_singleton.mp hfirst
          exact .inl (prefix_refl _)
      · exact .inr (mem_append_right _ hrest)
    · next hbreak =>
      rw [if_neg hbreak]
      split at h
      · next hspace =>
        rw [if_pos hspace]
        exact ih h
      · next hspace =>
        rw [if_neg hspace]
        exact (ih h).imp (prefix_append seen [unit]).trans id

/-! ## What normalizing keeps -/

theorem visibleLines_filter :
    visibleLines seen (text.filter fun unit => unit ≠ carriageReturn) = visibleLines seen text := by
  induction text generalizing seen with
  | nil => rfl
  | cons unit rest ih =>
    rw [filter_cons]
    split
    · rw [visibleLines, visibleLines]
      simp only [ih]
    · next hreturn =>
      have hunit : unit = carriageReturn := by simpa using hreturn
      subst hunit
      rw [ih, visibleLines_space seen rest (by decide) (by decide)]

theorem visibleLines_collapseBlanks (inBlank : Bool) (text : JsString) :
    visibleLines seen (collapseBlanks inBlank text) = visibleLines seen text := by
  induction text generalizing seen inBlank with
  | nil => rfl
  | cons unit rest ih =>
    rw [collapseBlanks]
    split
    · next hblank =>
      have hspace : isSpace unit := by rcases hblank with rfl | rfl <;> decide
      have hne : unit ≠ newline := by rcases hblank with rfl | rfl <;> decide
      rw [visibleLines_space seen rest hspace hne]
      split
      · exact ih seen true
      · rw [visibleLines_space seen _ isSpace_blank (by decide)]
        exact ih seen true
    · rw [visibleLines, visibleLines]
      simp only [ih]

theorem visibleLines_collapseBreaks {seen : Option JsString} {count : ℕ}
    (hcount : 2 ≤ count → seen = some []) :
    visibleLines seen (collapseBreaks count text) = visibleLines seen text := by
  induction text generalizing seen count with
  | nil => rfl
  | cons unit rest ih =>
    rw [collapseBreaks]
    split
    · next hbreak =>
      subst hbreak
      rw [visibleLines_newline]
      split
      · rw [visibleLines_newline, ih fun _ => rfl]
      · next hmany =>
        obtain rfl := hcount (by omega)
        exact ih fun _ => rfl
    · next hbreak =>
      have hzero (other : Option JsString) : 2 ≤ 0 → other = some [] :=
        fun h => absurd h (by decide)
      rw [visibleLines, visibleLines, if_neg hbreak, if_neg hbreak]
      simp only [ih (hzero _)]

theorem visibleLines_dropWhile :
    visibleLines (some []) (text.dropWhile isSpace) = visibleLines (some []) text := by
  induction text with
  | nil => rfl
  | cons unit rest ih =>
    rw [dropWhile_cons]
    split
    · next hspace =>
      rw [ih]
      by_cases hbreak : unit = newline
      · rw [hbreak, visibleLines_newline]
        rfl
      · rw [visibleLines_space _ rest hspace hbreak]
    · rfl

theorem mem_visibleLines_of_dropWhile {text : JsString}
    (h : line ∈ visibleLines none (text.dropWhile isSpace)) :
    line ∈ visibleLines none text := by
  induction text with
  | nil => exact h
  | cons unit rest ih =>
    rw [dropWhile_cons] at h
    split at h
    · next hspace =>
      by_cases hbreak : unit = newline
      · rw [hbreak, visibleLines_newline, ← visibleLines_dropWhile]
        exact mem_append_right _ (mem_visibleLines_of_none h _)
      · rw [visibleLines_space none rest hspace hbreak]
        exact ih h
    · exact h

theorem visibleLines_rdropWhile :
    visibleLines seen (text.rdropWhile isSpace) = visibleLines seen text := by
  obtain ⟨spaces, hsplit, hspaces⟩ : ∃ spaces, text = text.rdropWhile isSpace ++ spaces ∧
        ∀ unit ∈ spaces, isSpace unit := by
    refine ⟨text.rtakeWhile isSpace, ?_, fun unit hunit => ?_⟩
    · rw [List.rdropWhile, List.rtakeWhile, ← reverse_append, takeWhile_append_dropWhile,
        reverse_reverse]
    · exact mem_rtakeWhile_imp hunit
  conv_rhs => rw [hsplit]
  exact (visibleLines_append_spaces seen _ hspaces).symm

theorem visibleLines_trim :
    visibleLines (some []) (trim text) = visibleLines (some []) text := by
  rw [trim, visibleLines_rdropWhile, visibleLines_dropWhile]

/-- Normalizing the white space keeps the lines that show something. -/
theorem visibleLines_normalizeWhitespace :
    visibleLines (some []) (normalizeWhitespace text) = visibleLines (some []) text := by
  rw [normalizeWhitespace, visibleLines_trim, visibleLines_collapseBreaks _ fun _ => rfl,
    visibleLines_collapseBlanks, visibleLines_filter]

theorem mem_visibleLines_of_trim {text : JsString}
    (h : line ∈ visibleLines none (trim text)) : line ∈ visibleLines none text := by
  rw [trim, visibleLines_rdropWhile] at h
  exact mem_visibleLines_of_dropWhile h

theorem mem_visibleLines_of_normalizeWhitespace {text : JsString}
    (h : line ∈ visibleLines none (normalizeWhitespace text)) : line ∈ visibleLines none text := by
  have h' := mem_visibleLines_of_trim h
  rwa [visibleLines_collapseBreaks _ (fun h => absurd h (by decide)), visibleLines_collapseBlanks,
    visibleLines_filter] at h'

/-! ## The lines that are read -/

theorem visible_trim : visible (trim text) = visible text := by
  have hdrop (text : JsString) : visible (text.dropWhile isSpace) = visible text := by
    induction text with
    | nil => rfl
    | cons unit rest ih =>
      rw [dropWhile_cons]
      split
      · next hspace =>
        rw [ih, visible, visible, filter_cons, hspace]
        rfl
      · rfl
  rw [trim, List.rdropWhile, visible, filter_reverse]
  refine (congrArg List.reverse (hdrop _)).trans ?_
  rw [visible, filter_reverse, reverse_reverse]
  exact hdrop text

theorem trim_eq_nil_iff_visible {text : JsString} : trim text = [] ↔ visible text = [] := by
  rw [trim_eq_nil, visible, filter_eq_nil_iff]
  simp only [Bool.not_eq_true', Bool.not_eq_false]

/-- The pieces of a text, as far as they can be seen. -/
theorem visibleLines_eq_pieces (text first : JsString) (rest : List JsString)
    (h : text.splitOnP (fun unit => unit = newline) = first :: rest) :
    visibleLines seen text = shown (seen.map (· ++ visible first)) ++
      rest.flatMap fun piece => shown (some (visible piece)) := by
  induction text generalizing seen first rest with
  | nil =>
    rw [splitOnP_nil] at h
    obtain ⟨rfl, rfl⟩ := List.cons.inj h
    cases seen with
    | none => rfl
    | some line => simp [visibleLines, visible]
  | cons unit others ih =>
    obtain ⟨next, pieces, hothers⟩ := exists_cons_of_ne_nil
      (splitOnP_ne_nil (fun unit => decide (unit = newline)) others)
    rw [splitOnP_cons_eq_if_modifyHead, hothers] at h
    by_cases hbreak : unit = newline
    · rw [if_pos (decide_eq_true hbreak)] at h
      obtain ⟨rfl, rfl⟩ := List.cons.inj h
      rw [hbreak, visibleLines_newline, ih (some []) next pieces hothers, flatMap_cons]
      cases seen <;> simp [visible]
    · rw [if_neg (by simpa using hbreak), modifyHead_cons] at h
      obtain ⟨rfl, rfl⟩ := List.cons.inj h
      rw [visible, filter_cons]
      cases hspace : isSpace unit with
      | true =>
        rw [visibleLines_space seen others hspace hbreak]
        exact ih seen next pieces hothers
      | false =>
        rw [visibleLines_unit seen others hspace, ih _ next pieces hothers, Option.map_map]
        refine congrArg (fun change => shown (Option.map change seen) ++
          pieces.flatMap fun piece => shown (some (visible piece))) (funext fun line => ?_)
        exact append_assoc line [unit] (visible next)

/-- What can be seen of the lines that are read from a text. -/
theorem visible_mem_visibleLines {text : JsString} (h : line ∈ linesOfText text) :
    visible line ∈ visibleLines (some []) text := by
  obtain ⟨hline, hne⟩ := mem_filter.mp h
  obtain ⟨piece, hpiece, rfl⟩ := mem_map.mp hline
  rw [visible_trim]
  have hvisible : visible piece ≠ [] := fun hnone =>
    of_decide_eq_true hne (trim_eq_nil_iff_visible.mpr hnone)
  have hshown : visible piece ∈ shown (some (visible piece)) := by
    cases hpiece : visible piece with
    | nil => exact absurd hpiece hvisible
    | cons unit rest => exact mem_singleton.mpr rfl
  obtain ⟨first, rest, hsplit⟩ := exists_cons_of_ne_nil
    (splitOnP_ne_nil (fun unit => decide (unit = newline)) text)
  rw [visibleLines_eq_pieces _ _ first rest hsplit]
  rw [hsplit] at hpiece
  rcases mem_cons.mp hpiece with rfl | hrest
  · exact mem_append_left _ hshown
  · exact mem_append_right _ (mem_flatMap.mpr ⟨piece, hrest, hshown⟩)

/-! ## Items -/

variable {item : JsString} {values : List JsString} {value text : JsString} {unit : CodeUnit}
  (key : MemoryKey) {messages : List Message} {line : JsString}
  {summary : RootSessionStructuredSummary}

variable {normalize : JsString → Option JsString} {front : JsString} {items parts : List JsString}
  {requestGroupId : Option JsString} {workingSet : RootSessionPinnedWorkingSet}

theorem mem_foldl_normalize (values normalized : List JsString) :
    item ∈ values.foldl (fun normalized value =>
      match normalize value with
      | none => normalized
      | some trimmed =>
        if isAmong normalized trimmed then normalized else normalized ++ [trimmed]) normalized ↔
      item ∈ normalized ∨ ∃ value ∈ values, normalize value = some item := by
  induction values generalizing normalized with
  | nil => simp
  | cons value rest ih =>
    rw [foldl_cons, ih]
    cases hvalue : normalize value with
    | none => simp [hvalue]
    | some trimmed =>
      dsimp only
      split
      · next hamong =>
        rw [isAmong_iff] at hamong
        simp only [mem_cons, exists_eq_or_imp, hvalue, Option.some.injEq]
        constructor
        · exact fun h => h.imp_right .inr
        · rintro (hold | rfl | hmore)
          · exact .inl hold
          · exact .inl hamong
          · exact .inr hmore
      · rw [mem_append, mem_singleton, or_assoc, @eq_comm _ item]
        simp only [mem_cons, exists_eq_or_imp, hvalue, Option.some.injEq]

theorem mem_normalizeAll :
    item ∈ normalizeAll normalize values ↔ ∃ value ∈ values, normalize value = some item :=
  (mem_foldl_normalize values []).trans (by simp)

theorem mem_normalizeStringArray :
    item ∈ normalizeStringArray values ↔ ∃ value ∈ values, normalizeString value = some item :=
  mem_normalizeAll

theorem normalizeString_eq_some_iff :
    normalizeString value = some item ↔ normalizeWhitespace value = item ∧ item ≠ [] := by
  unfold normalizeString
  dsimp only
  split
  · next hnone =>
    refine ⟨fun h => absurd h (Option.some_ne_none item).symm, fun ⟨hitem, hne⟩ => ?_⟩
    exact absurd (hitem.symm.trans hnone) hne
  · next hsome =>
    refine ⟨fun h => ?_, fun ⟨hitem, _⟩ => congrArg some hitem⟩
    cases h
    exact ⟨rfl, hsome⟩

/-- A text of one line that normalizing leaves as it is. -/
structure Tidy (text : JsString) : Prop where
  units : ∀ unit ∈ text, unit ≠ carriageReturn ∧ unit ≠ tab ∧ unit ≠ newline
  blanks : List.IsChain (fun first second => first = blank → second ≠ blank) text
  trimmed : trim text = text
  nonempty : text ≠ []

theorem collapseBlanks_of_chain (htab : ∀ unit ∈ text, unit ≠ tab)
    (hchain : List.IsChain (fun first second => first = blank → second ≠ blank) text)
    (inBlank : Bool) (hfirst : inBlank → ∀ unit ∈ text.head?, unit ≠ blank) :
    collapseBlanks inBlank text = text := by
  induction text generalizing inBlank with
  | nil => rfl
  | cons unit rest ih =>
    have hrest := ih (fun other hother => htab other (mem_cons_of_mem _ hother))
      hchain.tail
    rw [collapseBlanks]
    by_cases hblank : unit = blank
    · subst hblank
      have hopen : inBlank = false := by
        by_contra hin
        rw [Bool.not_eq_false] at hin
        exact hfirst hin blank rfl rfl
      rw [if_pos (.inl rfl), hopen, if_neg Bool.false_ne_true, hrest true]
      intro _ next hnext
      cases rest with
      | nil => exact absurd hnext (Option.not_mem_none next)
      | cons second others =>
        cases hnext
        exact (isChain_cons_cons.mp hchain).1 rfl
    · rw [if_neg (not_or.mpr ⟨hblank, htab unit mem_cons_self⟩),
        hrest false fun h => absurd h Bool.false_ne_true]

theorem collapseBreaks_of_line (hline : newline ∉ text) (count : ℕ) :
    collapseBreaks count text = text := by
  induction text generalizing count with
  | nil => rfl
  | cons unit rest ih =>
    rw [mem_cons, not_or] at hline
    rw [collapseBreaks, if_neg (Ne.symm hline.1), ih hline.2]

theorem Tidy.normalizeWhitespace_eq (h : Tidy text) : normalizeWhitespace text = text := by
  have hreturn : text.filter (fun unit => decide (unit ≠ carriageReturn)) = text :=
    filter_eq_self.mpr fun unit hunit => decide_eq_true (h.units unit hunit).1
  rw [normalizeWhitespace, hreturn, collapseBlanks_of_chain
    (fun unit hunit => (h.units unit hunit).2.1) h.blanks false
    (fun h => absurd h Bool.false_ne_true),
    collapseBreaks_of_line fun hmem => (h.units newline hmem).2.2 rfl, h.trimmed]

theorem Tidy.normalizeString_eq (h : Tidy text) : normalizeString text = some text :=
  normalizeString_eq_some_iff.mpr ⟨h.normalizeWhitespace_eq, h.nonempty⟩

theorem mem_collapseBlanks {inBlank : Bool} (h : unit ∈ collapseBlanks inBlank text) :
    unit = blank ∨ unit ∈ text ∧ unit ≠ tab := by
  induction text generalizing inBlank with
  | nil => cases h
  | cons first rest ih =>
    have hlater (h : unit ∈ collapseBlanks true rest ∨ unit ∈ collapseBlanks false rest) :
        unit = blank ∨ unit ∈ first :: rest ∧ unit ≠ tab := by
      rcases h with h | h
      · exact (ih h).imp_right fun ⟨hmem, hne⟩ => ⟨mem_cons_of_mem _ hmem, hne⟩
      · exact (ih h).imp_right fun ⟨hmem, hne⟩ => ⟨mem_cons_of_mem _ hmem, hne⟩
    rw [collapseBlanks] at h
    split at h
    · split at h
      · exact hlater (.inl h)
      · rcases mem_cons.mp h with rfl | hrest
        · exact .inl rfl
        · exact hlater (.inl hrest)
    · next hvisible =>
      rcases mem_cons.mp h with rfl | hrest
      · exact .inr ⟨mem_cons_self, fun htab => hvisible (.inr htab)⟩
      · exact hlater (.inr hrest)

theorem isChain_collapseBlanks (inBlank : Bool) (text : JsString) :
    List.IsChain (fun first second => first = blank → second ≠ blank)
        (collapseBlanks inBlank text) ∧
      (inBlank → ∀ unit ∈ (collapseBlanks inBlank text).head?, unit ≠ blank) := by
  induction text generalizing inBlank with
  | nil => exact ⟨isChain_nil, fun _ unit hunit => absurd hunit (Option.not_mem_none unit)⟩
  | cons unit rest ih =>
    rw [collapseBlanks]
    split
    · split
      · next hin =>
        subst hin
        exact ih true
      · next hin =>
        refine ⟨?_, fun h => absurd h hin⟩
        obtain ⟨hchain, hhead⟩ := ih true
        cases hrest : collapseBlanks true rest with
        | nil => exact isChain_singleton _
        | cons second others =>
          rw [hrest] at hchain hhead
          exact isChain_cons_cons.mpr ⟨fun _ => hhead rfl second rfl, hchain⟩
    · next hvisible =>
      rw [not_or] at hvisible
      refine ⟨?_, fun _ head hhead => ?_⟩
      · obtain ⟨hchain, -⟩ := ih false
        cases hrest : collapseBlanks false rest with
        | nil => exact isChain_singleton _
        | cons second others =>
          rw [hrest] at hchain
          exact isChain_cons_cons.mpr ⟨fun h => absurd h hvisible.1, hchain⟩
      · cases hhead
        exact hvisible.1

/-- What normalizing makes of a text of one line. -/
theorem tidy_of_normalizeString (hline : newline ∉ value) (h : normalizeString value = some item) :
    Tidy item := by
  obtain ⟨rfl, hne⟩ := normalizeString_eq_some_iff.mp h
  have hunits {unit : CodeUnit} (hunit : unit ∈ collapseBlanks false
      (value.filter fun unit => unit ≠ carriageReturn)) :
      unit ≠ carriageReturn ∧ unit ≠ tab ∧ unit ≠ newline := by
    rcases mem_collapseBlanks hunit with rfl | ⟨hmem, htab⟩
    · decide
    · obtain ⟨hvalue, hreturn⟩ := mem_filter.mp hmem
      exact ⟨of_decide_eq_true hreturn, htab, fun hbreak => hline (hbreak ▸ hvalue)⟩
  have hbreaks := collapseBreaks_of_line (fun hmem => (hunits hmem).2.2 rfl) 0
  have heq : normalizeWhitespace value = trim (collapseBlanks false
      (value.filter fun unit => unit ≠ carriageReturn)) := congrArg trim hbreaks
  rw [heq] at hne ⊢
  exact ⟨fun unit hunit => hunits ((isInfix_trim _).subset hunit),
    List.IsChain.infix (isChain_collapseBlanks false _).1 (isInfix_trim _),
    trim_trim _, hne⟩

theorem key_all : (ofString key.text).all (fun unit =>
    unit ≠ carriageReturn && unit ≠ tab && unit ≠ newline && unit ≠ blank &&
      !isSpace unit) := by
  cases key <;> decide +kernel

theorem key_units (unit : CodeUnit) (h : unit ∈ ofString key.text) :
    unit ≠ carriageReturn ∧ unit ≠ tab ∧ unit ≠ newline ∧ unit ≠ blank ∧
      isSpace unit = false := by
  have hall := all_eq_true.mp (key_all key) unit h
  simpa only [Bool.and_eq_true, decide_eq_true_eq, Bool.not_eq_true', and_assoc] using hall

theorem key_ne_nil : ofString key.text ≠ [] := by
  cases key <;> decide +kernel

/-- An item with its key in front is one that normalizing leaves as it is. -/
theorem Tidy.marked (h : Tidy item) (key : MemoryKey) : Tidy (marked key item) where
  units := by
    intro unit hunit
    rcases mem_append.mp hunit with hkey | hitem
    · obtain ⟨hreturn, htab, hbreak, -⟩ := key_units key unit hkey
      exact ⟨hreturn, htab, hbreak⟩
    · rcases mem_cons.mp hitem with rfl | hrest
      · decide
      · exact h.units unit hrest
  blanks := by
    have hcolon : List.IsChain (fun first second => first = blank → second ≠ blank)
        (colon :: item) := by
      cases hitem : item with
      | nil => exact isChain_singleton _
      | cons first rest =>
        have hblanks := h.blanks
        rw [hitem] at hblanks
        exact isChain_cons_cons.mpr ⟨fun hblank => absurd hblank (by decide), hblanks⟩
    have hkey := key_units key
    unfold Memory.marked
    generalize ofString key.text = front at hkey
    induction front with
    | nil => exact hcolon
    | cons unit rest ih =>
      have hnext := ih fun other hother => hkey other (mem_cons_of_mem _ hother)
      refine isChain_cons.mpr ⟨fun second _ hblank => ?_, hnext⟩
      exact absurd hblank (hkey unit mem_cons_self).2.2.2.1
  trimmed := by
    have hfront : (Memory.marked key item).dropWhile isSpace = Memory.marked key item := by
      unfold Memory.marked
      obtain ⟨first, rest, hkey⟩ := exists_cons_of_ne_nil (key_ne_nil key)
      have hspace := (key_units key first (by rw [hkey]; exact mem_cons_self)).2.2.2.2
      rw [hkey, cons_append, dropWhile_cons_of_neg (by rw [hspace]; decide)]
    have hback : item.rdropWhile isSpace = item := by
      refine rdropWhile_eq_self_iff.mpr fun hne => ?_
      have htrim : (item.dropWhile isSpace).rdropWhile isSpace = item := h.trimmed
      have hlast := rdropWhile_last_not isSpace
        (item.dropWhile isSpace) (by rw [htrim]; exact hne)
      simpa only [htrim] using hlast
    rw [trim, hfront]
    refine rdropWhile_eq_self_iff.mpr fun hne => ?_
    have hlast := rdropWhile_eq_self_iff.mp hback h.nonempty
    unfold Memory.marked at hne ⊢
    rwa [getLast_append_of_ne_nil hne (cons_ne_nil colon item), getLast_cons h.nonempty]
  nonempty := append_ne_nil_of_left_ne_nil (key_ne_nil key) _

/-! ## The lines of messages -/

theorem valuesUnder_append (first second : List Message) :
    valuesUnder key (first ++ second) = valuesUnder key first ++ valuesUnder key second := by
  rw [valuesUnder, extractStructuredMemoryLines, flatMap_append, filterMap_append]
  rfl

theorem mem_valuesUnder_of_mem {key : MemoryKey} {message : Message} (hmessage : message ∈ messages)
    (h : value ∈ valuesUnder key [message]) : value ∈ valuesUnder key messages := by
  obtain ⟨before, after, rfl⟩ := append_of_mem hmessage
  rw [← singleton_append, valuesUnder_append, valuesUnder_append]
  exact mem_append_right _ (mem_append_left _ h)

theorem splitAtColon_eq {back : JsString} (h : splitAtColon line = some (front, back)) :
    line = front ++ colon :: back := by
  induction line generalizing front with
  | nil => cases h
  | cons unit rest ih =>
    rw [splitAtColon] at h
    split at h
    · next hcolon =>
      cases Option.some.inj h
      rw [hcolon, nil_append]
    · obtain ⟨parts, hparts, hpair⟩ := Option.map_eq_some_iff.mp h
      cases hpair
      rw [cons_append, ← ih hparts]

theorem valueUnder_eq_some {key : MemoryKey} (h : valueUnder key line = some value) :
    ∃ front back, line = front ++ colon :: back ∧
      trim front = ofString key.text ∧ trim back = value := by
  unfold valueUnder at h
  split at h
  · exact absurd h (Option.some_ne_none value).symm
  · next front back hsplit =>
    split at h
    · exact absurd h (Option.some_ne_none value).symm
    · split at h
      · exact absurd h (Option.some_ne_none value).symm
      · split at h
        · next hkey => exact ⟨front, back, splitAtColon_eq hsplit, hkey, Option.some.inj h⟩
        · exact absurd h (Option.some_ne_none value).symm

theorem newline_not_mem_of_mem_valuesUnder {key : MemoryKey} (h : value ∈ valuesUnder key messages)
    : newline ∉ value := by
  obtain ⟨line, hline, hvalue⟩ := mem_filterMap.mp h
  obtain ⟨front, back, rfl, -, rfl⟩ := valueUnder_eq_some hvalue
  obtain ⟨message, -, hmem⟩ := mem_flatMap.mp hline
  obtain ⟨hread, -⟩ := mem_filter.mp hmem
  obtain ⟨piece, hpiece, htrim⟩ := mem_map.mp hread
  intro hbreak
  have hback := (isInfix_trim back).subset hbreak
  have hwhole : newline ∈ trim piece := by
    rw [htrim]
    exact mem_append_right _ (mem_cons_of_mem _ hback)
  have hvisible := not_of_mem_splitOnP hpiece newline ((isInfix_trim piece).subset hwhole)
  exact of_decide_eq_false hvisible rfl

/-- The items that are found are tidy. -/
theorem tidy_of_found {key : MemoryKey} (h : item ∈ normalizeStringArray (valuesUnder key messages))
    : Tidy item := by
  obtain ⟨value, hvalue, hitem⟩ := mem_normalizeStringArray.mp h
  exact tidy_of_normalizeString (newline_not_mem_of_mem_valuesUnder hvalue) hitem

theorem found_of_mem {key : MemoryKey} {first second : List Message}
    (hvalues : ∀ value ∈ valuesUnder key first, value ∈ valuesUnder key second)
    (h : item ∈ normalizeStringArray (valuesUnder key first)) :
    item ∈ normalizeStringArray (valuesUnder key second) := by
  obtain ⟨value, hvalue, hitem⟩ := mem_normalizeStringArray.mp h
  exact mem_normalizeStringArray.mpr ⟨value, hvalues value hvalue, hitem⟩

/-- A found item is pinned with its key in front. -/
theorem marked_mem {key : MemoryKey} (htidy : Tidy item) (hitem : item ∈ items)
    (hsub : ∀ other ∈ items.map (marked key), other ∈ values) :
    marked key item ∈ normalizeStringArray values :=
  mem_normalizeStringArray.mpr ⟨marked key item, hsub _ (mem_map_of_mem hitem),
    (htidy.marked key).normalizeString_eq⟩

/-! ## Lines that forbid a compaction -/

/-- The keys of the lines that forbid a compaction. -/
def blockingKeys : List MemoryKey := [.recoveryState, .finalDeliveryBlock]

/-- What a line with a key begins with. -/
def keyMark (key : MemoryKey) : JsString := ofString key.text ++ [colon]

/-- What can be seen of a line does not begin with a key that forbids a compaction. -/
def Harmless (line : JsString) : Prop := ∀ key ∈ blockingKeys, ¬ keyMark key <+: line

/-- No line of a text behind a line break forbids a compaction. -/
def Quiet (text : JsString) : Prop := ∀ line ∈ visibleLines none text, Harmless line

/-- No line of a text forbids a compaction. -/
def Silent (text : JsString) : Prop := ∀ line ∈ visibleLines (some []) text, Harmless line

theorem Silent.quiet {text : JsString} (h : Silent text) : Quiet text :=
  fun line hline => h line (mem_visibleLines_of_none hline _)

/-- The first units of a line tell that it is harmless. -/
def tellsHarmless (front : JsString) : Bool :=
  blockingKeys.all fun key => front.take (keyMark key).length ≠ keyMark key &&
    (keyMark key).take front.length ≠ front

theorem harmless_of_front (hfront : tellsHarmless front) (h : front <+: line) : Harmless line := by
  intro key hkey hmark
  have hboth := all_eq_true.mp hfront key hkey
  rw [Bool.and_eq_true, decide_eq_true_eq, decide_eq_true_eq] at hboth
  rcases prefix_or_prefix_of_prefix hmark h with hlong | hshort
  · exact hboth.1 (prefix_iff_eq_take.mp hlong).symm
  · exact hboth.2 (prefix_iff_eq_take.mp hshort).symm

/-- A harmless line stays harmless behind a unit that no key has. -/
theorem harmless_of_append {more : JsString} (hline : Harmless line)
    (hunit : ∀ key ∈ blockingKeys, unit ∉ keyMark key) (h : line ++ [unit] <+: more) :
    Harmless more := by
  intro key hkey hmark
  rcases prefix_or_prefix_of_prefix hmark h with hlong | hshort
  · rcases prefix_concat_iff.mp hlong with heq | hbefore
    · exact hunit key hkey (by rw [heq]; exact mem_append_cons_self)
    · exact hline key hkey hbefore
  · exact hunit key hkey (hshort.subset (mem_append_cons_self))

theorem harmless_nil : Harmless [] := by
  intro key hkey hmark
  have hnil := prefix_nil.mp hmark
  exact absurd hnil (append_ne_nil_of_right_ne_nil _ (cons_ne_nil colon []))

theorem visible_key : visible (ofString key.text) = ofString key.text :=
  filter_eq_self.mpr fun unit hunit => by
    rw [(key_units key unit hunit).2.2.2.2]
    rfl

/-- A text none of whose lines forbids a compaction has no value under the key of one. -/
theorem Silent.valuesUnder_eq_nil (h : Silent text) {key : MemoryKey} (hkey : key ∈ blockingKeys) :
    valuesUnder key [⟨.user, .plain text⟩] = [] := by
  refine filterMap_eq_nil_iff.mpr fun line hline => ?_
  obtain ⟨message, hmessage, hread⟩ := mem_flatMap.mp hline
  obtain rfl := mem_singleton.mp hmessage
  have hvisible := visible_mem_visibleLines hread
  rw [renderMessageForTranscript, visibleLines_normalizeWhitespace] at hvisible
  cases hvalue : valueUnder key line with
  | none => rfl
  | some value =>
    obtain ⟨front, back, rfl, hfront, -⟩ := valueUnder_eq_some hvalue
    refine absurd ?_ (h _ hvisible key hkey)
    have hparts : visible (front ++ colon :: back) = visible front ++ colon :: visible back := by
      rw [visible, filter_append]
      rfl
    have hsame : visible front = ofString key.text := by rw [← visible_trim, hfront, visible_key]
    rw [hparts, hsame, keyMark]
    exact ⟨visible back, by rw [append_assoc]; rfl⟩

/-! ## Texts that stay quiet -/

/-- A line that has begun is shown some time. -/
theorem exists_longer (seen : JsString) (hseen : seen ≠ []) (text : JsString) :
    ∃ longer ∈ visibleLines (some seen) text, seen <+: longer := by
  induction text generalizing seen with
  | nil =>
    cases seen with
    | nil => exact absurd rfl hseen
    | cons unit rest => exact ⟨_, mem_singleton.mpr rfl, prefix_refl _⟩
  | cons unit rest ih =>
    by_cases hbreak : unit = newline
    · rw [hbreak, visibleLines_newline]
      cases seen with
      | nil => exact absurd rfl hseen
      | cons first others => exact ⟨_, mem_append_left _ (mem_singleton.mpr rfl), prefix_refl _⟩
    · cases hspace : isSpace unit with
      | true =>
        rw [visibleLines_space _ rest hspace hbreak]
        exact ih seen hseen
      | false =>
        rw [visibleLines_unit _ rest hspace, Option.map_some]
        obtain ⟨longer, hlonger, hfront⟩ := ih (seen ++ [unit])
          (append_ne_nil_of_left_ne_nil hseen _)
        exact ⟨longer, hlonger, (prefix_append seen [unit]).trans hfront⟩

theorem Quiet.normalizeWhitespace (h : Quiet text) : Quiet (normalizeWhitespace text) :=
  fun line hline => h line (mem_visibleLines_of_normalizeWhitespace hline)

theorem Quiet.trim (h : Quiet text) : Quiet (trim text) :=
  fun line hline => h line (mem_visibleLines_of_trim hline)

theorem quiet_of_line (h : newline ∉ text) : Quiet text := by
  intro line hline
  rw [visibleLines_of_line none h] at hline
  cases hline

/-- Behind a label that tells a line harmless a quiet text is silent. -/
theorem silent_of_label {label : JsString} (hlabel : newline ∉ label)
    (htells : tellsHarmless (visible label)) (h : Quiet text) : Silent (label ++ text) := by
  intro line hline
  rw [visibleLines_append_of_line _ hlabel, Option.map_some] at hline
  rcases prefix_or_mem_of_mem_visibleLines hline with hfront | hlater
  · exact harmless_of_front htells hfront
  · exact h line hlater

theorem quiet_normalizeStringArray (h : ∀ value ∈ values, Quiet value) :
    ∀ item ∈ normalizeStringArray values, Quiet item := by
  intro item hitem
  obtain ⟨value, hvalue, hsome⟩ := mem_normalizeStringArray.mp hitem
  obtain ⟨rfl, -⟩ := normalizeString_eq_some_iff.mp hsome
  exact (h value hvalue).normalizeWhitespace

theorem quiet_normalizeCapsule (h : ∀ value ∈ values, Quiet value) :
    ∀ item ∈ normalizeAll normalizeCapsuleString values, Quiet item := by
  intro item hitem
  obtain ⟨value, hvalue, hsome⟩ := mem_normalizeAll.mp hitem
  unfold normalizeCapsuleString at hsome
  dsimp only at hsome
  split at hsome
  · exact absurd hsome (Option.some_ne_none item).symm
  · cases hsome
    exact (h value hvalue).trim

theorem silent_joinLines (h : ∀ part ∈ parts, Silent part) : Silent (joinLines parts) := by
  induction parts with
  | nil => exact nofun
  | cons part rest ih =>
    have hrest := ih fun other hother => h other (mem_cons_of_mem _ hother)
    cases rest with
    | nil => exact h part mem_cons_self
    | cons second others =>
      intro line hline
      have hjoin : joinLines (part :: second :: others) =
          part ++ newline :: joinLines (second :: others) := rfl
      rw [hjoin, visibleLines_append_newline] at hline
      rcases mem_append.mp hline with hfirst | hlater
      · exact h part mem_cons_self line hfirst
      · exact hrest line hlater

theorem quiet_joinLines {part : JsString} {rest : List JsString} (hpart : Quiet part)
    (h : ∀ other ∈ rest, Silent other) : Quiet (joinLines (part :: rest)) := by
  cases rest with
  | nil => exact hpart
  | cons second others =>
    intro line hline
    have hjoin : joinLines (part :: second :: others) =
        part ++ newline :: joinLines (second :: others) := rfl
    rw [hjoin, visibleLines_append_newline] at hline
    rcases mem_append.mp hline with hfirst | hlater
    · exact hpart line hfirst
    · exact silent_joinLines h line hlater

/-- What a text leaves of its lines, and of the line that it ends in. -/
theorem exists_flushed (seen : Option JsString) (text : JsString) :
    ∃ flushed last, ∀ more, visibleLines seen (text ++ more) =
      flushed ++ visibleLines last more := by
  induction text generalizing seen with
  | nil => exact ⟨[], seen, fun _ => rfl⟩
  | cons unit rest ih =>
    by_cases hbreak : unit = newline
    · obtain ⟨flushed, last, hrest⟩ := ih (some [])
      refine ⟨shown seen ++ flushed, last, fun more => ?_⟩
      rw [cons_append, hbreak, visibleLines_newline, hrest, append_assoc]
    · cases hspace : isSpace unit with
      | true =>
        obtain ⟨flushed, last, hrest⟩ := ih seen
        refine ⟨flushed, last, fun more => ?_⟩
        rw [cons_append, visibleLines_space seen _ hspace hbreak, hrest]
      | false =>
        obtain ⟨flushed, last, hrest⟩ := ih (seen.map (· ++ [unit]))
        refine ⟨flushed, last, fun more => ?_⟩
        rw [cons_append, visibleLines_unit seen _ hspace, hrest]

/-- The line that a text ends in is shown where the text ends. -/
theorem harmless_last {lines : List JsString}
    (h : ∀ other ∈ lines ++ shown (some line), Harmless other) : Harmless line := by
  cases line with
  | nil => exact harmless_nil
  | cons unit rest => exact h _ (mem_append_right _ (mem_singleton.mpr rfl))

/-- A quiet text stays quiet where a unit that no key has and a quiet text are put behind it. -/
theorem Quiet.append {first second : JsString} (hfirst : Quiet first)
    (hunit : ∀ key ∈ blockingKeys, unit ∉ keyMark key) (hvisible : isSpace unit = false)
    (hsecond : Quiet second) : Quiet (first ++ unit :: second) := by
  obtain ⟨flushed, last, hsplit⟩ := exists_flushed none first
  intro line hline
  have hwhole := hsplit []
  rw [append_nil] at hwhole
  unfold Quiet at hfirst
  rw [hwhole] at hfirst
  rw [hsplit, visibleLines_unit last second hvisible] at hline
  rcases mem_append.mp hline with hbefore | hlater
  · exact hfirst line (mem_append_left _ hbefore)
  · cases last with
    | none => exact hsecond line hlater
    | some seen =>
      rcases prefix_or_mem_of_mem_visibleLines hlater with hfront | hbehind
      · exact harmless_of_append (harmless_last hfirst) hunit hfront
      · exact hsecond line hbehind

/-- The first units of a quiet text are quiet. -/
theorem Quiet.take (h : Quiet text) (count : ℕ) : Quiet (text.take count) := by
  obtain ⟨flushed, last, hsplit⟩ := exists_flushed none (text.take count)
  have hwhole := hsplit (text.drop count)
  rw [take_append_drop] at hwhole
  have hshort := hsplit []
  rw [append_nil] at hshort
  unfold Quiet at h ⊢
  rw [hwhole] at h
  rw [hshort]
  intro line hline
  rcases mem_append.mp hline with hbefore | hlast
  · exact h line (mem_append_left _ hbefore)
  · cases last with
    | none => cases hlast
    | some seen =>
      cases seen with
      | nil => cases hlast
      | cons unit rest =>
        obtain rfl := mem_singleton.mp hlast
        obtain ⟨longer, hlonger, hfront⟩ := exists_longer (unit :: rest)
          (cons_ne_nil _ _) (text.drop count)
        exact fun key hkey hmark =>
          h longer (mem_append_right _ hlonger) key hkey (hmark.trans hfront)

theorem Quiet.rdropWhile (h : Quiet text) : Quiet (text.rdropWhile isSpace) := by
  unfold Quiet
  rw [visibleLines_rdropWhile]
  exact h

theorem Quiet.truncate (h : Quiet text) (maxChars : ℕ) :
    Quiet (truncateSnapshotSummary text maxChars) := by
  unfold truncateSnapshotSummary
  dsimp only
  split
  · exact h.normalizeWhitespace
  · have hellipsis : ofString "…" = codeUnit 8230 :: [] := by decide
    rw [hellipsis]
    exact (h.normalizeWhitespace.take _).rdropWhile.append (by decide) (by decide)
      (quiet_of_line not_mem_nil)

theorem quiet_joinValues (h : ∀ value ∈ values, Quiet value) : Quiet (joinValues values) := by
  induction values with
  | nil => exact quiet_of_line not_mem_nil
  | cons value rest ih =>
    have hrest := ih fun other hother => h other (mem_cons_of_mem _ hother)
    cases rest with
    | nil => exact h value mem_cons_self
    | cons second others =>
      have hjoin : joinValues (value :: second :: others) = value ++
          codeUnit 59 :: (codeUnit 32 :: joinValues (second :: others)) := by
        have hseparator : ofString "; " = [codeUnit 59, codeUnit 32] := by decide
        rw [joinValues, hseparator, append_assoc]
        · rfl
        · exact fun hnil => absurd hnil (cons_ne_nil _ _)
      rw [hjoin]
      refine (h value mem_cons_self).append (by decide) (by decide) fun line hline => ?_
      rw [visibleLines_space none _ (by decide) (by decide)] at hline
      exact hrest line hline

/-! ## The blocks forbid nothing -/

/-- No text of a summary that is rendered forbids a compaction behind a line break. -/
def RootSessionStructuredSummary.IsQuiet (summary : RootSessionStructuredSummary) : Prop :=
  ∀ text ∈ summary.whatHappened :: (summary.currentGoal ++ summary.stillOpen ++
    summary.confirmedFacts ++ summary.mustKeepConstraints ++ summary.artifactsAndReceipts ++
      summary.handoffReadyContext), Quiet text

/-- A label of a section tells that its lines are harmless. -/
def labelTells (label : String) : Bool :=
  tellsHarmless (visible (ofString s!"{label}: []")) &&
    tellsHarmless (visible (ofString s!"{label}:")) &&
      (ofString s!"{label}: []").all (fun unit => unit ≠ newline) &&
        (ofString s!"{label}:").all fun unit => unit ≠ newline

theorem silent_of_tells (hline : newline ∉ text) (htells : tellsHarmless (visible text)) :
    Silent text := by
  have h := silent_of_label hline htells (quiet_of_line not_mem_nil)
  rwa [append_nil] at h

theorem newline_not_mem (h : text.all (fun unit => decide (unit ≠ newline))) : newline ∉ text :=
  fun hmem => of_decide_eq_true (all_eq_true.mp h newline hmem) rfl

theorem silent_renderSection {label : String} (hlabel : labelTells label)
    (h : ∀ value ∈ values, Quiet value) : Silent (renderSection label values) := by
  unfold labelTells at hlabel
  simp only [Bool.and_eq_true] at hlabel
  obtain ⟨⟨⟨hnone, hsome⟩, hnoneLine⟩, hsomeLine⟩ := hlabel
  unfold renderSection
  dsimp only
  split
  · exact silent_of_tells (newline_not_mem hnoneLine) hnone
  · refine silent_joinLines fun part hpart => ?_
    rcases mem_cons.mp hpart with rfl | hitem
    · exact silent_of_tells (newline_not_mem hsomeLine) hsome
    · obtain ⟨item, hmem, rfl⟩ := mem_map.mp hitem
      exact silent_of_label (newline_not_mem (by decide +kernel)) (by decide +kernel)
        (quiet_normalizeStringArray h item hmem)

theorem quiet_of_found {key : MemoryKey} :
    ∀ item ∈ normalizeStringArray (valuesUnder key messages), Quiet item :=
  fun _ hitem => quiet_of_line fun hbreak => ((tidy_of_found hitem).units newline hbreak).2.2 rfl

theorem Quiet.marked (h : Quiet item) (key : MemoryKey) : Quiet (marked key item) := by
  intro line hline
  have hfront : newline ∉ ofString key.text := fun hbreak =>
    (key_units key newline hbreak).2.2.1 rfl
  rw [Memory.marked, visibleLines_append_of_line none hfront,
    visibleLines_unit _ _ (by decide)] at hline
  exact h line hline

theorem quiet_map_marked {key : MemoryKey} (h : ∀ item ∈ items, Quiet item) :
    ∀ item ∈ items.map (marked key), Quiet item := by
  intro item hitem
  obtain ⟨plain, hplain, rfl⟩ := mem_map.mp hitem
  exact (h plain hplain).marked key

theorem quiet_append {first second : List JsString} (hfirst : ∀ item ∈ first, Quiet item)
    (hsecond : ∀ item ∈ second, Quiet item) : ∀ item ∈ first ++ second, Quiet item :=
  fun item hitem => (mem_append.mp hitem).elim (hfirst item) (hsecond item)

/-- The texts of a pinned working set. -/
structure QuietSet (workingSet : RootSessionPinnedWorkingSet) : Prop where
  activeObjectives : ∀ item ∈ workingSet.activeObjectives, Quiet item
  confirmedFacts : ∀ item ∈ workingSet.confirmedFacts, Quiet item
  constraints : ∀ item ∈ workingSet.constraints, Quiet item
  decisions : ∀ item ∈ workingSet.decisions, Quiet item
  pendingItems : ∀ item ∈ workingSet.pendingItems, Quiet item
  artifactRefs : ∀ item ∈ workingSet.artifactRefs, Quiet item

/-- What is found in lines is one line, so the pinned working set is quiet. -/
theorem quietSet_found (messages : List Message) (hgroup : ∀ id ∈ requestGroupId, Quiet id) :
    QuietSet (buildRootSessionPinnedWorkingSet
      (extractRootSessionDeterministicState messages requestGroupId)) where
  activeObjectives := by
    refine quiet_normalizeStringArray (quiet_append quiet_of_found (quiet_map_marked ?_))
    refine quiet_normalizeStringArray (quiet_append (fun item hitem => ?_) fun value hvalue =>
      quiet_of_line (newline_not_mem_of_mem_valuesUnder hvalue))
    obtain ⟨hid, -⟩ := Option.filter_eq_some_iff.mp (Option.mem_toList.mp hitem)
    obtain ⟨id, hsome, rfl⟩ := Option.map_eq_some_iff.mp hid
    exact (hgroup id hsome).trim
  confirmedFacts := quiet_of_found
  constraints := quiet_normalizeStringArray (quiet_append (quiet_append (quiet_append
    quiet_of_found (quiet_map_marked quiet_of_found)) (quiet_map_marked quiet_of_found))
      (quiet_map_marked quiet_of_found))
  decisions := quiet_normalizeStringArray
    (quiet_append quiet_of_found (quiet_map_marked quiet_of_found))
  pendingItems := quiet_normalizeStringArray (quiet_append (quiet_append
    (quiet_map_marked quiet_of_found) (quiet_map_marked quiet_of_found))
      (quiet_map_marked quiet_of_found))
  artifactRefs := quiet_normalizeStringArray quiet_of_found

theorem silent_joinParts (h : ∀ part ∈ parts, Silent part) :
    Silent (joinLines (parts.filter fun part => part ≠ [])) :=
  silent_joinLines fun part hpart => h part (mem_filter.mp hpart).1

theorem silent_pinnedBlock (h : QuietSet workingSet) :
    Silent (renderPinnedWorkingSetPromptBlock workingSet) := by
  refine silent_joinParts fun part hpart => ?_
  simp only [mem_cons, not_mem_nil, or_false] at hpart
  rcases hpart with rfl | rfl | rfl | rfl | rfl | rfl | rfl
  · exact silent_of_tells (newline_not_mem (by decide +kernel)) (by decide +kernel)
  · exact silent_renderSection (by decide +kernel) h.activeObjectives
  · exact silent_renderSection (by decide +kernel) h.confirmedFacts
  · exact silent_renderSection (by decide +kernel) h.constraints
  · exact silent_renderSection (by decide +kernel) h.decisions
  · exact silent_renderSection (by decide +kernel) h.pendingItems
  · exact silent_renderSection (by decide +kernel) h.artifactRefs

theorem quiet_capsuleSummary (h : summary.IsQuiet) :
    Quiet (buildRootSessionCapsuleSummary summary) := by
  have hwhat : Quiet summary.whatHappened := h _ mem_cons_self
  have hgoal : Silent (ofString "current_goal: " ++ joinValues summary.currentGoal) :=
    silent_of_label (newline_not_mem (by decide +kernel)) (by decide +kernel)
      (quiet_joinValues fun value hvalue => h value (by simp [hvalue]))
  have hopen : Silent (ofString "still_open: " ++ joinValues summary.stillOpen) :=
    silent_of_label (newline_not_mem (by decide +kernel)) (by decide +kernel)
      (quiet_joinValues fun value hvalue => h value (by simp [hvalue]))
  have hempty : Silent [] := nofun
  have hrest : ∀ part ∈ ([if summary.currentGoal = [] then []
        else ofString "current_goal: " ++ joinValues summary.currentGoal,
      if summary.stillOpen = [] then []
        else ofString "still_open: " ++ joinValues summary.stillOpen].filter
          fun part => part ≠ []), Silent part := by
    intro part hpart
    obtain ⟨hmem, -⟩ := mem_filter.mp hpart
    simp only [mem_cons, not_mem_nil, or_false] at hmem
    rcases hmem with rfl | rfl
    · split
      · exact hempty
      · exact hgoal
    · split
      · exact hempty
      · exact hopen
  unfold buildRootSessionCapsuleSummary
  refine Quiet.truncate ?_ 1200
  rw [filter_cons]
  split
  · exact quiet_joinLines hwhat hrest
  · exact (silent_joinLines hrest).quiet

theorem compactionCapsule_eq (workingSet : RootSessionPinnedWorkingSet)
    (summary : RootSessionStructuredSummary) : compactionCapsule workingSet summary =
      { summary := trim (trim (buildRootSessionCapsuleSummary summary))
        activeObjectives := normalizeAll normalizeCapsuleString (normalizeStringArray
          (workingSet.activeObjectives ++ summary.currentGoal))
        confirmedFacts := normalizeAll normalizeCapsuleString (normalizeStringArray
          (workingSet.confirmedFacts ++ summary.confirmedFacts))
        decisions := normalizeAll normalizeCapsuleString (normalizeStringArray
          (workingSet.decisions ++ summary.toolSideEffectBoundary ++
            summary.retryDoNotRepeat.map (marked .retryBoundary)))
        constraints := normalizeAll normalizeCapsuleString (normalizeStringArray
          (workingSet.constraints ++ summary.mustKeepConstraints))
        pendingItems := normalizeAll normalizeCapsuleString (normalizeStringArray
          (workingSet.pendingItems ++ summary.stillOpen))
        artifactRefs := normalizeAll normalizeCapsuleString (normalizeStringArray
          (workingSet.artifactRefs ++ summary.artifactsAndReceipts))
        recoveryHints := normalizeAll normalizeCapsuleString
          (normalizeAll normalizeCapsuleString summary.handoffReadyContext) } := by
  simp only [compactionCapsule, normalizeMemoryCapsule]

theorem silent_capsuleBlock (hset : QuietSet workingSet) (h : summary.IsQuiet) :
    Silent (renderCompactedCapsulePromptBlock (compactionCapsule workingSet summary)) := by
  have hmerged {first second : List JsString} (hfirst : ∀ item ∈ first, Quiet item)
      (hsecond : ∀ item ∈ second, Quiet item) :
      ∀ item ∈ normalizeAll normalizeCapsuleString (normalizeStringArray (first ++ second)),
        Quiet item :=
    quiet_normalizeCapsule (quiet_normalizeStringArray (quiet_append hfirst hsecond))
  rw [compactionCapsule_eq]
  refine silent_joinParts fun part hpart => ?_
  simp only [mem_cons, not_mem_nil, or_false] at hpart
  rcases hpart with rfl | rfl | rfl | rfl | rfl | rfl | rfl | rfl
  · exact silent_of_tells (newline_not_mem (by decide +kernel)) (by decide +kernel)
  · exact silent_of_label (newline_not_mem (by decide +kernel)) (by decide +kernel)
      (quiet_capsuleSummary h).trim.trim
  · exact silent_renderSection (by decide +kernel)
      (hmerged hset.activeObjectives fun item hitem => h item (by simp [hitem]))
  · exact silent_renderSection (by decide +kernel)
      (hmerged hset.confirmedFacts fun item hitem => h item (by simp [hitem]))
  · exact silent_renderSection (by decide +kernel)
      (hmerged hset.constraints fun item hitem => h item (by simp [hitem]))
  · exact silent_renderSection (by decide +kernel)
      (hmerged hset.pendingItems fun item hitem => h item (by simp [hitem]))
  · exact silent_renderSection (by decide +kernel)
      (hmerged hset.artifactRefs fun item hitem => h item (by simp [hitem]))
  · exact silent_renderSection (by decide +kernel)
      (quiet_normalizeCapsule (quiet_normalizeCapsule fun item hitem => h item (by simp [hitem])))

/-! ## Conversations with compactions -/

/-- A compaction that has been: the messages that there had been, what it pinned and the blocks it
wrote. -/
structure PastCompaction where
  originals : List Message
  workingSet : RootSessionPinnedWorkingSet
  blocks : List Message

structure ConversationState where
  (originals window : List Message)
  compactions : List PastCompaction

inductive ConversationStep
  | add (message : Message)
  | compact (insertMemoryCapsule : MemoryCapsule → Bool) (requestGroupId : Option JsString)
      (summary : RootSessionStructuredSummary)

def startConversation (messages : List Message) : ConversationState := ⟨messages, messages, []⟩

variable (state : ConversationState)

/-- A message comes behind the window, or a compaction that succeeds rewrites the window. -/
def conversationStep? : ConversationStep → Option ConversationState
  | .add message =>
    some { state with
      originals := state.originals ++ [message]
      window := state.window ++ [message] }
  | .compact insertMemoryCapsule requestGroupId summary =>
    match executeRootSessionCompaction insertMemoryCapsule state.window requestGroupId
      summary with
    | .error _ => none
    | .ok result =>
      some { state with
        window := result.messages
        compactions := state.compactions ++
          [⟨state.originals, buildRootSessionPinnedWorkingSet
            (extractRootSessionDeterministicState state.window requestGroupId),
              result.messages.take 2⟩] }

/-- Whatever was found in a message is pinned. -/
structure PinsFound (messages : List Message) (workingSet : RootSessionPinnedWorkingSet) :
    Prop where
  pendingApprovals : ∀ message ∈ messages,
    ∀ item ∈ (extractRootSessionDeterministicState [message] none).pendingApprovals,
      marked .pendingApproval item ∈ workingSet.pendingItems
  pendingDelivery : ∀ message ∈ messages,
    ∀ item ∈ (extractRootSessionDeterministicState [message] none).pendingDelivery,
      marked .pendingDelivery item ∈ workingSet.pendingItems
  mustKeepConstraints : ∀ message ∈ messages,
    ∀ item ∈ (extractRootSessionDeterministicState [message] none).mustKeepConstraints,
      item ∈ workingSet.constraints
  explicitTargetSelectors : ∀ message ∈ messages,
    ∀ item ∈ (extractRootSessionDeterministicState [message] none).explicitTargetSelectors,
      marked .targetSelector item ∈ workingSet.constraints
  explicitUserCorrections : ∀ message ∈ messages,
    ∀ item ∈ (extractRootSessionDeterministicState [message] none).explicitUserCorrections,
      marked .userCorrection item ∈ workingSet.constraints
  retryDoNotRepeatBoundary : ∀ message ∈ messages,
    ∀ item ∈ (extractRootSessionDeterministicState [message] none).retryDoNotRepeatBoundary,
      marked .retryBoundary item ∈ workingSet.decisions
  confirmedFacts : ∀ message ∈ messages,
    ∀ item ∈ (extractRootSessionDeterministicState [message] none).confirmedFacts,
      item ∈ workingSet.confirmedFacts

/-- Every compaction has pinned what had been found before it, and its blocks forbid nothing. -/
def StateStaysPinned : Prop :=
  ∀ compaction ∈ state.compactions, PinsFound compaction.originals compaction.workingSet ∧
    (extractRootSessionDeterministicState compaction.blocks none).recoveryStates = [] ∧
      (extractRootSessionDeterministicState compaction.blocks none).finalDeliveryBlockReasons = []

/-- The keys of what has to stay pinned. -/
def pinnedKeys : List MemoryKey :=
  [.pendingApproval, .pendingDelivery, .constraint, .targetSelector, .userCorrection,
    .retryBoundary, .confirmedFact]

/-- A compaction loses nothing when each line of the dropped messages that has to stay is in the
kept tail too, and writes nothing that forbids the next one when no text it renders has such a
line behind a line break. -/
def KeepsLines : ConversationStep → Prop
  | .add _ => True
  | .compact _ requestGroupId summary =>
    (∀ key ∈ pinnedKeys, ∀ value ∈ valuesUnder key (droppedFront state.window none),
      value ∈ valuesUnder key (keptTail state.window none)) ∧
    summary.IsQuiet ∧ ∀ id ∈ requestGroupId, Quiet id

/-- The window has the lines of all that there has been. -/
structure WindowKeeps (state : ConversationState) : Prop where
  lines : ∀ key ∈ pinnedKeys, ∀ value ∈ valuesUnder key state.originals,
    value ∈ valuesUnder key state.window
  pinned : StateStaysPinned state

theorem pinsFound_of_lines {originals window : List Message}
    (h : ∀ key ∈ pinnedKeys, ∀ value ∈ valuesUnder key originals, value ∈ valuesUnder key window)
    (requestGroupId : Option JsString) :
    PinsFound originals (buildRootSessionPinnedWorkingSet
      (extractRootSessionDeterministicState window requestGroupId)) := by
  have hfound {key : MemoryKey} (hkey : key ∈ pinnedKeys) {message : Message}
      (hmessage : message ∈ originals) {item : JsString}
      (hitem : item ∈ normalizeStringArray (valuesUnder key [message])) :
      Tidy item ∧ item ∈ normalizeStringArray (valuesUnder key window) :=
    ⟨tidy_of_found hitem, found_of_mem (fun value hvalue =>
      h key hkey value (mem_valuesUnder_of_mem hmessage hvalue)) hitem⟩
  refine ⟨fun message hmessage item hitem => ?_, fun message hmessage item hitem => ?_,
    fun message hmessage item hitem => ?_, fun message hmessage item hitem => ?_,
    fun message hmessage item hitem => ?_, fun message hmessage item hitem => ?_,
    fun message hmessage item hitem => ?_⟩
  · obtain ⟨htidy, hmem⟩ := hfound (by decide) hmessage hitem
    exact marked_mem htidy hmem fun other hother => mem_append_left _ (mem_append_left _ hother)
  · obtain ⟨htidy, hmem⟩ := hfound (by decide) hmessage hitem
    exact marked_mem htidy hmem fun other hother => mem_append_left _ (mem_append_right _ hother)
  · obtain ⟨htidy, hmem⟩ := hfound (by decide) hmessage hitem
    refine mem_normalizeStringArray.mpr ⟨item, ?_, htidy.normalizeString_eq⟩
    exact mem_append_left _ (mem_append_left _ (mem_append_left _ hmem))
  · obtain ⟨htidy, hmem⟩ := hfound (by decide) hmessage hitem
    exact marked_mem htidy hmem fun other hother =>
      mem_append_left _ (mem_append_left _ (mem_append_right _ hother))
  · obtain ⟨htidy, hmem⟩ := hfound (by decide) hmessage hitem
    exact marked_mem htidy hmem fun other hother => mem_append_left _ (mem_append_right _ hother)
  · obtain ⟨htidy, hmem⟩ := hfound (by decide) hmessage hitem
    exact marked_mem htidy hmem fun other hother => mem_append_right _ hother
  · exact (hfound (by decide) hmessage hitem).2

/-- The two blocks that a compaction writes forbid nothing. -/
theorem blocks_forbid_nothing (hsummary : summary.IsQuiet)
    (hgroup : ∀ id ∈ requestGroupId, Quiet id) {key : MemoryKey} (hkey : key ∈ blockingKeys) :
    valuesUnder key ((rewriteRootSessionActiveWindow messages
      (compactionCapsule (buildRootSessionPinnedWorkingSet
        (extractRootSessionDeterministicState messages requestGroupId)) summary)
      (buildRootSessionPinnedWorkingSet
        (extractRootSessionDeterministicState messages requestGroupId)) none none
        none).messages.take 2) = [] := by
  have hset := quietSet_found messages hgroup
  have hpinned := (silent_pinnedBlock hset).valuesUnder_eq_nil hkey
  have hcapsule := (silent_capsuleBlock hset hsummary).valuesUnder_eq_nil hkey
  have happend := valuesUnder_append key
    [⟨.user, .plain (renderPinnedWorkingSetPromptBlock (buildRootSessionPinnedWorkingSet
      (extractRootSessionDeterministicState messages requestGroupId)))⟩]
    [⟨.user, .plain (renderCompactedCapsulePromptBlock (compactionCapsule
      (buildRootSessionPinnedWorkingSet
        (extractRootSessionDeterministicState messages requestGroupId)) summary))⟩]
  rw [hpinned, hcapsule] at happend
  exact happend

theorem forbids_nothing (h : ∀ key ∈ blockingKeys, valuesUnder key messages = []) :
    (extractRootSessionDeterministicState messages none).recoveryStates = [] ∧
      (extractRootSessionDeterministicState messages none).finalDeliveryBlockReasons = [] := by
  refine ⟨?_, ?_⟩
  · change normalizeStringArray (valuesUnder .recoveryState messages) = []
    rw [h .recoveryState mem_cons_self]
    rfl
  · change normalizeStringArray (valuesUnder .finalDeliveryBlock messages) = []
    rw [h .finalDeliveryBlock (mem_cons_of_mem _ mem_cons_self)]
    rfl

theorem windowKeeps_step {state next : ConversationState} {step : ConversationStep}
    (h : WindowKeeps state) (hcondition : KeepsLines state step)
    (hnext : conversationStep? state step = some next) : WindowKeeps next := by
  cases step with
  | add message =>
    cases hnext
    refine ⟨fun key hkey value hvalue => ?_, h.pinned⟩
    rw [valuesUnder_append] at hvalue ⊢
    rcases mem_append.mp hvalue with hbefore | hnew
    · exact mem_append_left _ (h.lines key hkey value hbefore)
    · exact mem_append_right _ hnew
  | compact insertMemoryCapsule requestGroupId summary =>
    obtain ⟨hkept, hsummary, hgroup⟩ := hcondition
    unfold conversationStep? at hnext
    dsimp only at hnext
    split at hnext
    · exact absurd hnext (Option.some_ne_none next).symm
    · next result hresult =>
      cases hnext
      obtain ⟨-, -, rfl⟩ := execute_of_ok hresult
      refine ⟨fun key hkey value hvalue => ?_, fun compaction hcompaction => ?_⟩
      · have hwindow := h.lines key hkey value hvalue
        rw [← front_append_tail state.window none, valuesUnder_append] at hwindow
        have htail : value ∈ valuesUnder key (keptTail state.window none) :=
          (mem_append.mp hwindow).elim (hkept key hkey value) id
        obtain ⟨texts, htexts⟩ := rewritten_messages state.window
          (compactionCapsule (buildRootSessionPinnedWorkingSet
            (extractRootSessionDeterministicState state.window requestGroupId)) summary)
          (buildRootSessionPinnedWorkingSet
            (extractRootSessionDeterministicState state.window requestGroupId)) none none none
        rw [htexts, valuesUnder_append]
        exact mem_append_right _ htail
      · rcases mem_append.mp hcompaction with hold | hnew
        · exact h.pinned compaction hold
        · obtain rfl := mem_singleton.mp hnew
          exact ⟨pinsFound_of_lines h.lines requestGroupId,
            forbids_nothing fun key hkey => blocks_forbid_nothing hsummary hgroup hkey⟩

def plainSummary : RootSessionStructuredSummary :=
  ⟨ofString "so far", [], [], [], [], [], [], [], []⟩

def compactOnce : ConversationStep := .compact (fun _ => true) none plainSummary

def approvalMessage : Message := ⟨.user, .plain (ofString "pending_approval:approval-1")⟩

/-- An approval is pending, and eight messages come behind. -/
def longTalk : List Message :=
  approvalMessage :: List.replicate 8 ⟨.user, .plain (ofString "next")⟩

theorem longTalk_pinned : (execute conversationStep? (startConversation longTalk)
      [compactOnce, compactOnce]).map (fun state =>
        state.compactions.map fun compaction => compaction.workingSet.pendingItems) =
    some [[marked .pendingApproval (ofString "approval-1")], []] := by
  decide +kernel

end Nobie.Memory
