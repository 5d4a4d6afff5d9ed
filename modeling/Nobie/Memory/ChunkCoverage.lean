/-
# What the chunks of a text cover

The loop that cuts a text looks back from the end of its window for a line break and starts
again a little before the place where it stopped. Each stop lies beyond the one before, so the
loop comes to an end, and only white space at the ends of the windows is left out.
-/

import Nobie.Memory.DocumentStore

namespace Nobie.Memory

open Foundation JsString List

variable (text : JsString)

/-- The units of a text from one place up to another. -/
structure Span where
  first : ℕ
  stop : ℕ

/-- `text.slice(first, stop)`. -/
def Span.of (span : Span) : JsString := (text.drop span.first).take (span.stop - span.first)

/-- A place in the text where something else than white space stands. -/
def Stands (place : ℕ) : Prop := ∃ unit, text[place]? = some unit ∧ isSpace unit = false

/-- Where `chunkMemoryText` stops a window that begins at the place. -/
def chunkStop (start : ℕ) : ℕ :=
  let hardEnd := min (start + 1600) text.length
  match lastLineBreak text hardEnd with
  | some softBreak => if start + 960 < softBreak then softBreak else hardEnd
  | none => hardEnd

/-- The loop of `chunkMemoryText` comes to its end from a place on, with these chunks. -/
inductive Chunked : ℕ → List JsString → Prop
  | past {start} : text.length ≤ start → Chunked start []
  | last {start} : start < text.length → text.length ≤ chunkStop text start →
      Chunked start ([trim (Span.of text ⟨start, chunkStop text start⟩)].filter (· ≠ []))
  | next {start chunks} : chunkStop text start < text.length →
      Chunked (chunkStop text start - 160) chunks →
      Chunked start ([trim (Span.of text ⟨start, chunkStop text start⟩)].filter (· ≠ []) ++ chunks)

variable {text} {start : ℕ}

/-! ## The turns of the loop -/

theorem chunkStop_le (text : JsString) (start : ℕ) :
    chunkStop text start ≤ min (start + 1600) text.length := by
  simp only [chunkStop]
  split
  next softBreak hbreak =>
    split
    · have hmem := (mem_filter.mp (mem_of_getLast? hbreak)).1
      rw [mem_range] at hmem
      omega
    · exact le_rfl
  · exact le_rfl

/-- A window that does not reach the end of the text is longer than the overlap. -/
theorem chunkStop_advances (text : JsString) (start : ℕ) :
    min (start + 961) text.length ≤ chunkStop text start := by
  simp only [chunkStop]
  split
  · split <;> omega
  · omega

theorem chunksFrom_succ (fuel : ℕ) : chunksFrom text (fuel + 1) start =
    if text.length ≤ start then []
    else [trim (Span.of text ⟨start, chunkStop text start⟩)].filter (· ≠ []) ++
      if text.length ≤ chunkStop text start then []
      else chunksFrom text fuel (chunkStop text start - 160) := by
  rw [chunksFrom]
  refine if_congr Iff.rfl rfl ?_
  change (if trim (Span.of text ⟨start, chunkStop text start⟩) = [] then _ else _) = _
  by_cases hblank : trim (Span.of text ⟨start, chunkStop text start⟩) = []
  · rw [if_pos hblank, hblank]
    rfl
  · rw [if_neg hblank, filter_cons_of_pos (by simpa using hblank)]
    rfl

/-- A turn for every unit that is left is enough. -/
theorem chunked_chunksFrom : ∀ {fuel start}, text.length ≤ start + fuel →
    Chunked text start (chunksFrom text fuel start) := by
  intro fuel
  induction fuel with
  | zero => exact fun hfuel => .past hfuel
  | succ fuel ih =>
    intro start hfuel
    rw [chunksFrom_succ]
    split
    next hpast => exact .past hpast
    next hinside =>
      split
      next hlast =>
        rw [append_nil]
        exact .last (not_le.mp hinside) hlast
      next hnext =>
        have hadvances := chunkStop_advances text start
        exact .next (not_le.mp hnext) (ih (by omega))

/-! ## Trimmed windows -/

theorem Stands.lt {place : ℕ} (h : Stands text place) : place < text.length := by
  obtain ⟨unit, hunit, -⟩ := h
  exact (List.getElem?_eq_some_iff.mp hunit).1

/-- What stands in a slice stands in the text. -/
theorem stands_of_iff (span : Span) (place : ℕ) :
    Stands (span.of text) place ↔
      Stands text (span.first + place) ∧ span.first + place < span.stop := by
  unfold Stands Span.of
  rw [getElem?_take, getElem?_drop]
  by_cases hplace : place < span.stop - span.first
  · rw [if_pos hplace]
    exact ⟨fun h => ⟨h, by omega⟩, And.left⟩
  · rw [if_neg hplace]
    refine ⟨fun ⟨_, hunit, _⟩ => ?_, fun ⟨_, h⟩ => absurd h (by omega)⟩
    cases hunit

theorem Span.of_of {outer inner : Span} (hinner : inner.stop ≤ (outer.of text).length) :
    inner.of (outer.of text) =
      Span.of text ⟨outer.first + inner.first, outer.first + inner.stop⟩ := by
  unfold Span.of at hinner ⊢
  rw [length_take, length_drop] at hinner
  rw [drop_take, take_take, drop_drop]
  refine congrArg (take · _) ?_
  dsimp only
  omega

/-- The span holds everything of a text up to a place from another on but white space at its
ends. -/
structure Trims (text : JsString) (start stop : ℕ) (span : Span) : Prop where
  inside : start ≤ span.first ∧ span.first < span.stop ∧ span.stop ≤ stop
  begins : Stands text span.first
  ends : Stands text (span.stop - 1)
  holds : ∀ place, Stands text place → start ≤ place → place < stop →
    span.first ≤ place ∧ place < span.stop

/-- Trimming a text leaves one span of it. -/
theorem exists_trims (hne : trim text ≠ []) :
    ∃ span, trim text = span.of text ∧ Trims text 0 text.length span := by
  obtain ⟨front, back, hparts, hspace⟩ := exists_trimmed_parts text
  have hlength := length_pos_of_ne_nil hne
  have hhead := dropWhile_eq_self_iff.mp (dropWhile_trim text) hlength
  have hlast : ¬ isSpace ((trim text).getLast hne) := rdropWhile_last_not isSpace _ hne
  rw [getLast_eq_getElem] at hlast
  generalize trim text = trimmed at *
  subst hparts
  refine ⟨⟨front.length, front.length + trimmed.length⟩, ?_, ⟨Nat.zero_le _, ?_, ?_⟩, ?_, ?_, ?_⟩
  · simp [Span.of]
  · exact Nat.lt_add_of_pos_right hlength
  · simp
  · refine ⟨trimmed[0], ?_, Bool.eq_false_of_not_eq_true hhead⟩
    simp [hlength]
  · refine ⟨trimmed[trimmed.length - 1], ?_, Bool.eq_false_of_not_eq_true hlast⟩
    rw [Nat.add_sub_assoc hlength, getElem?_append_right (by omega), Nat.add_sub_cancel_left,
      getElem?_append_left (by omega), getElem?_eq_getElem]
  · rintro place ⟨unit, hunit, hnot⟩ - -
    have hmem : ¬ (unit ∈ front ∨ unit ∈ back) := fun h => by
      rw [hspace unit h] at hnot
      cases hnot
    rw [getElem?_append, getElem?_append] at hunit
    split at hunit
    · exact absurd (.inl (mem_of_getElem? hunit)) hmem
    · split at hunit
      · dsimp only
        omega
      · exact absurd (.inr (mem_of_getElem? hunit)) hmem

/-- Trimming a slice leaves one span of the text. -/
theorem exists_trims_slice {stop : ℕ} (hstop : stop ≤ text.length)
    (hne : trim (Span.of text ⟨start, stop⟩) ≠ []) :
    ∃ span, trim (Span.of text ⟨start, stop⟩) = span.of text ∧ Trims text start stop span := by
  obtain ⟨inner, htrim, hinner⟩ := exists_trims hne
  obtain ⟨-, hnonempty, hinside⟩ := hinner.inside
  have hlength : (Span.of text ⟨start, stop⟩).length = stop - start := by
    rw [Span.of, length_take, length_drop]
    dsimp only
    omega
  have hends := (stands_of_iff _ _).mp hinner.ends
  refine ⟨⟨start + inner.first, start + inner.stop⟩, ?_, ⟨Nat.le_add_right _ _, ?_, ?_⟩,
    ((stands_of_iff _ _).mp hinner.begins).1, ?_, ?_⟩
  · rw [htrim, Span.of_of hinside]
  · exact Nat.add_lt_add_left hnonempty _
  · dsimp only at hends ⊢
    omega
  · rw [Nat.add_sub_assoc (Nat.one_le_of_lt hnonempty)]
    exact hends.1
  · intro place hplace hfirst hlast
    have hholds := hinner.holds (place - start)
      ((stands_of_iff _ _).mpr ⟨by rwa [Nat.add_sub_cancel' hfirst], by dsimp only; omega⟩)
      (Nat.zero_le _) (by omega)
    dsimp only
    omega

/-! ## The spans of the chunks -/

/-- The spans lie in the text after a place, one after the other, each begins with something
else than white space, and everything else than white space after the place is in one of
them. -/
structure Covers (text : JsString) (start : ℕ) (spans : List Span) : Prop where
  begins : ∀ span ∈ spans, start ≤ span.first ∧ Stands text span.first
  ends : ∀ span ∈ spans, span.first < span.stop ∧ span.stop ≤ text.length ∧
    span.stop ≤ span.first + 1600
  reaches : ∀ span ∈ spans, ∀ place, Stands text place → start ≤ place →
    place < chunkStop text start → place < span.stop
  ordered : spans.Pairwise fun span next => span.first ≤ next.first ∧ span.stop ≤ next.stop
  covered : ∀ place, Stands text place → start ≤ place →
    ∃ span ∈ spans, span.first ≤ place ∧ place < span.stop

theorem covers_past (hpast : text.length ≤ start) : Covers text start [] where
  begins := by simp
  ends := by simp
  reaches := by simp
  ordered := .nil
  covered _ hplace hstart := absurd hplace.lt (by omega)

/-- What the window adds in front of the spans of the windows that follow. -/
theorem Covers.window {next : ℕ} {spans : List Span} (h : Covers text next spans)
    (hnext : start ≤ next ∧ next ≤ chunkStop text start)
    (hstop : chunkStop text start ≤ chunkStop text next) :
    ∃ all : List Span, [trim (Span.of text ⟨start, chunkStop text start⟩)].filter (· ≠ []) ++
      spans.map (·.of text) = all.map (·.of text) ∧ Covers text start all := by
  have hend := chunkStop_le text start
  have hreaches : ∀ span ∈ spans, ∀ place, Stands text place → start ≤ place →
      place < chunkStop text start → place < span.stop := by
    intro span hspan place hplace _ hbefore
    obtain hearly | hlate := lt_or_ge place next
    · have := h.begins span hspan
      have := h.ends span hspan
      omega
    · exact h.reaches span hspan place hplace hlate (by omega)
  by_cases hblank : trim (Span.of text ⟨start, chunkStop text start⟩) = []
  · refine ⟨spans, by rw [hblank]; rfl, fun span hspan => ?_, h.ends, hreaches, h.ordered, ?_⟩
    · exact ⟨hnext.1.trans (h.begins span hspan).1, (h.begins span hspan).2⟩
    · intro place hplace hstart
      refine h.covered place hplace (le_of_not_gt fun hbefore => ?_)
      obtain ⟨unit, hunit, hnot⟩ := (stands_of_iff ⟨start, chunkStop text start⟩
        (place - start)).mpr ⟨by rwa [Nat.add_sub_cancel' hstart], by dsimp only; omega⟩
      rw [trim_eq_nil.mp hblank unit (mem_of_getElem? hunit)] at hnot
      cases hnot
  · obtain ⟨first, htrim, hfirst⟩ := exists_trims_slice (by omega) hblank
    have hinside := hfirst.inside
    refine ⟨first :: spans, ?_, ?_, ?_, ?_, ?_, ?_⟩
    · rw [filter_cons_of_pos (by simpa using hblank), htrim]
      rfl
    · refine forall_mem_cons.mpr ⟨⟨hinside.1, hfirst.begins⟩, fun span hspan => ?_⟩
      exact ⟨hnext.1.trans (h.begins span hspan).1, (h.begins span hspan).2⟩
    · exact forall_mem_cons.mpr ⟨by omega, h.ends⟩
    · exact forall_mem_cons.mpr
        ⟨fun place hplace hstart hbefore => (hfirst.holds _ hplace hstart hbefore).2, hreaches⟩
    · refine pairwise_cons.mpr ⟨fun span hspan => ⟨?_, ?_⟩, h.ordered⟩
      · obtain hbefore | hafter := lt_or_ge span.first (chunkStop text start)
        · have := h.begins span hspan
          exact (hfirst.holds _ this.2 (hnext.1.trans this.1) hbefore).1
        · omega
      · have := hreaches span hspan (first.stop - 1) hfirst.ends (by omega) (by omega)
        omega
    · intro place hplace hstart
      obtain hbefore | hafter := lt_or_ge place (chunkStop text start)
      · exact ⟨first, mem_cons_self, hfirst.holds _ hplace hstart hbefore⟩
      · obtain ⟨span, hspan, hwithin⟩ := h.covered place hplace (hnext.2.trans hafter)
        exact ⟨span, mem_cons_of_mem _ hspan, hwithin⟩

/-- The chunks are spans of the text, in the order of the text, and only white space lies
outside them. -/
theorem exists_covers {chunks : List JsString} (h : Chunked text start chunks) :
    ∃ spans : List Span, chunks = spans.map (·.of text) ∧ Covers text start spans := by
  induction h with
  | past hpast => exact ⟨[], rfl, covers_past hpast⟩
  | @last start hstart hlast =>
    have hend := chunkStop_le text start
    have hadvances := chunkStop_advances text text.length
    obtain ⟨spans, hspans, hcovers⟩ :=
      (covers_past le_rfl).window ⟨hstart.le, hlast⟩ (by omega)
    exact ⟨spans, by rw [← hspans, map_nil, append_nil], hcovers⟩
  | @next start _ hnext _ ih =>
    obtain ⟨spans, rfl, hcovers⟩ := ih
    have hadvances := chunkStop_advances text start
    have hlater := chunkStop_advances text (chunkStop text start - 160)
    exact hcovers.window (by omega) (by omega)

theorem exists_covers_trim (value : JsString) :
    ∃ spans : List Span, chunkMemoryText value = spans.map (·.of (trim value)) ∧
      Covers (trim value) 0 spans := by
  simp only [chunkMemoryText]
  split
  next hblank => exact ⟨[], rfl, covers_past (by rw [hblank]; rfl)⟩
  next hne =>
    split
    next hshort =>
      rw [← trim_trim] at hne
      obtain ⟨span, htrim, hspan⟩ := exists_trims hne
      rw [trim_trim] at htrim
      have hinside := hspan.inside
      have hstop := chunkStop_le (trim value) 0
      refine ⟨[span], by rw [map_singleton, ← htrim], ?_, ?_, ?_, pairwise_singleton _ _, ?_⟩
      · exact forall_mem_singleton.mpr ⟨hinside.1, hspan.begins⟩
      · exact forall_mem_singleton.mpr (by omega)
      · exact forall_mem_singleton.mpr fun place hplace _ _ =>
          (hspan.holds _ hplace (Nat.zero_le _) hplace.lt).2
      · exact fun place hplace _ =>
          ⟨span, mem_singleton_self _, hspan.holds _ hplace (Nat.zero_le _) hplace.lt⟩
    · exact exists_covers (chunked_chunksFrom (Nat.le_add_left _ _))

/-- A text is cut into chunks that are not blank and not too long, each a span of the text, one
after the other, and no more than white space is lost between them. The loop has come to its
end by then. -/
theorem chunkMemoryText_covers (value : JsString) :
    (1600 < (trim value).length → Chunked (trim value) 0 (chunkMemoryText value)) ∧
    (∀ chunk ∈ chunkMemoryText value, chunk.length ≤ 1600 ∧ trim chunk ≠ []) ∧
    ∃ spans : List Span, chunkMemoryText value = spans.map (·.of value) ∧
      (∀ span ∈ spans, span.first < span.stop ∧ span.stop ≤ value.length) ∧
      (spans.Pairwise fun span next => span.first ≤ next.first ∧ span.stop ≤ next.stop) ∧
      ∀ place, Stands value place → ∃ span ∈ spans, span.first ≤ place ∧ place < span.stop := by
  obtain ⟨spans, hspans, hcovers⟩ := exists_covers_trim value
  refine ⟨fun hlong => ?_, fun chunk hchunk => ?_, ?_⟩
  · have hne : trim value ≠ [] := ne_nil_of_length_pos (by omega)
    simp only [chunkMemoryText]
    rw [if_neg hne, if_neg (not_le.mpr hlong)]
    exact chunked_chunksFrom (Nat.le_add_left _ _)
  · rw [hspans] at hchunk
    obtain ⟨span, hspan, rfl⟩ := mem_map.mp hchunk
    have hends := hcovers.ends span hspan
    refine ⟨(length_take_le _ _).trans (by omega), fun hblank => ?_⟩
    obtain ⟨unit, hunit, hnot⟩ := (stands_of_iff span 0).mpr
      ⟨(hcovers.begins span hspan).2, hends.1⟩
    rw [trim_eq_nil.mp hblank unit (mem_of_getElem? hunit)] at hnot
    cases hnot
  · obtain hblank | hne := eq_or_ne (trim value) []
    · refine ⟨[], by rw [chunkMemoryText, hblank]; rfl, by simp, .nil, ?_⟩
      rintro place ⟨unit, hunit, hnot⟩
      rw [trim_eq_nil.mp hblank unit (mem_of_getElem? hunit)] at hnot
      cases hnot
    obtain ⟨outer, htrim, houter⟩ := exists_trims hne
    have hlength : (trim value).length ≤ outer.stop - outer.first := by
      rw [htrim]
      exact length_take_le _ _
    have hinside := houter.inside
    refine ⟨spans.map fun span => ⟨outer.first + span.first, outer.first + span.stop⟩, ?_, ?_, ?_,
      fun place hplace => ?_⟩
    · rw [hspans, map_map]
      refine map_congr_left fun span hspan => ?_
      have hends := (hcovers.ends span hspan).2.1
      rw [htrim] at hends ⊢
      exact Span.of_of hends
    · refine forall_mem_map.mpr fun span hspan => ?_
      have hends := hcovers.ends span hspan
      dsimp only
      omega
    · rw [pairwise_map]
      exact hcovers.ordered.imp fun h => by dsimp only; omega
    · have hwithin := houter.holds _ hplace (Nat.zero_le _) hplace.lt
      have hstands : Stands (trim value) (place - outer.first) := by
        rw [htrim]
        refine (stands_of_iff _ _).mpr ?_
        rw [Nat.add_sub_cancel' hwithin.1]
        exact ⟨hplace, hwithin.2⟩
      obtain ⟨span, hspan, hcovered⟩ := hcovers.covered _ hstands (Nat.zero_le _)
      exact ⟨_, mem_map_of_mem hspan, by dsimp only; omega⟩

end Nobie.Memory
