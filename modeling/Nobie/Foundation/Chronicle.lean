/-
# What happened last, and what happened before

A chronicle is a list of events, the latest one last. Something of one kind happened with
nothing of another kind after it: this is what a fold that keeps the last word computes, and
one more event decides it anew or leaves it. A law of order judges every event by what had
happened before it; where a chronicle is told part by part, so is the law. Events are told
apart when those of each kind are.
-/

import Mathlib.Data.List.Induction
import Mathlib.Data.List.Nodup

namespace Nobie.Foundation

open List

variable {Event : Type} {happened undone other : Event → Prop}

/-- An event of the first kind that no later event of the second kind follows. -/
def StandsAtEnd (happened undone : Event → Prop) (events : List Event) : Prop :=
  ∃ before event after, events = before ++ event :: after ∧ happened event ∧
    ∀ later ∈ after, ¬ undone later

theorem not_standsAtEnd_nil : ¬ StandsAtEnd happened undone [] := by
  rintro ⟨before, event, after, hevents, -⟩
  exact absurd hevents.symm (by simp)

variable {events : List Event} {event : Event}

/-- One more event. -/
theorem standsAtEnd_concat :
    StandsAtEnd happened undone (events ++ [event]) ↔
      happened event ∨ (StandsAtEnd happened undone events ∧ ¬ undone event) := by
  constructor
  · rintro ⟨before, found, after, hevents, hfound, hafter⟩
    obtain rfl | ⟨rest, last, rfl⟩ := eq_nil_or_concat after
    · obtain ⟨-, heq⟩ := append_inj' hevents rfl
      obtain rfl : event = found := singleton_inj.mp heq
      exact .inl hfound
    · rw [concat_eq_append, ← cons_append, ← append_assoc] at hevents
      obtain ⟨rfl, heq⟩ := append_inj' hevents rfl
      obtain rfl : event = last := singleton_inj.mp heq
      refine .inr ⟨⟨before, found, rest, rfl, hfound, fun later hlater => ?_⟩, ?_⟩
      · exact hafter later (by simp [hlater])
      · exact hafter event (by simp)
  · rintro (hlast | ⟨⟨before, found, after, rfl, hfound, hafter⟩, hevent⟩)
    · exact ⟨events, event, [], rfl, hlast, by simp⟩
    · refine ⟨before, found, after ++ [event], by simp, hfound, fun later hlater => ?_⟩
      obtain hlater | hlast := mem_append.mp hlater
      · exact hafter later hlater
      · rw [mem_singleton.mp hlast]
        exact hevent

/-- What stands stays through events that do not undo it. -/
theorem StandsAtEnd.append {more : List Event} (h : StandsAtEnd happened undone events)
    (hmore : ∀ event ∈ more, ¬ undone event) : StandsAtEnd happened undone (events ++ more) := by
  obtain ⟨before, event, after, rfl, hevent, hafter⟩ := h
  refine ⟨before, event, after ++ more, by simp, hevent, fun later hlater => ?_⟩
  obtain hlater | hlater := mem_append.mp hlater
  · exact hafter later hlater
  · exact hmore later hlater

theorem StandsAtEnd.mono (h : StandsAtEnd happened undone events)
    (himp : ∀ event, happened event → other event) : StandsAtEnd other undone events := by
  obtain ⟨before, event, after, hevents, hevent, hafter⟩ := h
  exact ⟨before, event, after, hevents, himp event hevent, hafter⟩

/-- Where an event of either kind happened, one of them is the last. -/
theorem standsAtEnd_or {events : List Event} {event : Event} (hmem : event ∈ events)
    (hevent : happened event ∨ undone event) :
    StandsAtEnd happened undone events ∨ StandsAtEnd undone happened events := by
  induction events using List.reverseRecOn with
  | nil => cases hmem
  | append_singleton events last ih =>
    rw [standsAtEnd_concat, standsAtEnd_concat]
    by_cases hhappened : happened last
    · exact .inl (.inl hhappened)
    by_cases hundone : undone last
    · exact .inr (.inl hundone)
    obtain hmem | hlast := mem_append.mp hmem
    · exact (ih hmem).imp (fun h => .inr ⟨h, hundone⟩) fun h => .inr ⟨h, hhappened⟩
    · obtain rfl := mem_singleton.mp hlast
      exact absurd hevent (not_or.mpr ⟨hhappened, hundone⟩)

/-! ## Laws of order -/

variable {Item : Type} {judge : List Event → Event → Prop}

/-- Every event is judged by what had happened before it. -/
def EachAfter (judge : List Event → Event → Prop) (events : List Event) : Prop :=
  ∀ before event after, events = before ++ event :: after → judge before event

theorem eachAfter_nil : EachAfter judge [] := by
  intro before event after hevents
  exact absurd hevents.symm (by simp)

theorem eachAfter_append {first second : List Event} :
    EachAfter judge (first ++ second) ↔
      EachAfter judge first ∧ EachAfter (fun before => judge (first ++ before)) second := by
  constructor
  · intro h
    refine ⟨?_, ?_⟩
    · rintro before event after rfl
      exact h before event (after ++ second) (by simp)
    · rintro before event after rfl
      exact h (first ++ before) event after (by simp)
  · rintro ⟨hfirst, hsecond⟩ before event after hevents
    obtain ⟨middle, rfl, hrest⟩ | ⟨middle, hbefore, hrest⟩ := append_eq_append_iff.mp hevents
    · exact hsecond middle event after hrest
    · cases middle with
      | nil =>
        rw [append_nil] at hbefore
        rw [← hbefore]
        have hhead : judge (first ++ []) event := hsecond [] event after hrest.symm
        rwa [append_nil] at hhead
      | cons head rest =>
        obtain ⟨rfl, -⟩ := List.cons.inj hrest
        exact hfirst before event rest hbefore

theorem eachAfter_singleton : EachAfter judge [event] ↔ judge [] event := by
  constructor
  · intro h
    exact h [] event [] rfl
  · intro h before found after hevents
    obtain ⟨rfl, hrest⟩ | ⟨rest, rfl, hrest⟩ := append_eq_cons_iff.mp hevents.symm
    · obtain rfl := (List.cons.inj hrest).1
      exact h
    · exact absurd hrest (by simp)

theorem eachAfter_cons :
    EachAfter judge (event :: events) ↔
      judge [] event ∧ EachAfter (fun before => judge (event :: before)) events := by
  rw [← singleton_append, eachAfter_append, eachAfter_singleton]
  rfl

theorem eachAfter_of_forall (h : ∀ event ∈ events, ∀ before, judge before event) :
    EachAfter judge events := by
  rintro before event after rfl
  exact h event (by simp) before

/-- A chronicle that tells of one item after the other. -/
theorem eachAfter_flatMap {items : List Item} {told : Item → List Event} :
    EachAfter judge (items.flatMap told) ↔ ∀ front item back, items = front ++ item :: back →
        EachAfter (fun before => judge (front.flatMap told ++ before)) (told item) := by
  constructor
  · rintro h front item back rfl
    rw [flatMap_append, flatMap_cons, eachAfter_append, eachAfter_append] at h
    exact h.2.1
  · intro h
    induction items using List.reverseRecOn with
    | nil => exact eachAfter_nil
    | append_singleton items last ih =>
      rw [flatMap_append, flatMap_singleton, eachAfter_append]
      refine ⟨ih fun front item back hitems => ?_, h items last [] rfl⟩
      exact h front item (back ++ [last]) (by rw [hitems, append_assoc, cons_append])

/-! ## Kinds -/

variable {Kind Label : Type} [DecidableEq Kind]

/-- The labels of one kind. -/
def labelsOf (kind : Kind) (labelled : List (Kind × Label)) : List Label :=
  (labelled.filter fun entry => entry.1 = kind).map Prod.snd

variable (kind : Kind)

@[simp]
theorem labelsOf_nil : labelsOf kind ([] : List (Kind × Label)) = [] := rfl

@[simp]
theorem labelsOf_cons (entry : Kind × Label) (rest : List (Kind × Label)) :
    labelsOf kind (entry :: rest) =
      if entry.1 = kind then entry.2 :: labelsOf kind rest else labelsOf kind rest := by
  unfold labelsOf
  split <;> simp_all

@[simp]
theorem labelsOf_append (first second : List (Kind × Label)) :
    labelsOf kind (first ++ second) = labelsOf kind first ++ labelsOf kind second := by
  simp [labelsOf]

@[simp]
theorem labelsOf_flatMap (items : List Item) (told : Item → List (Kind × Label)) :
    labelsOf kind (items.flatMap told) = items.flatMap fun item => labelsOf kind (told item) := by
  simp [labelsOf, filter_flatMap, map_flatMap]

/-- Labels of different kinds are different. -/
theorem nodup_iff_labelsOf {labelled : List (Kind × Label)} :
    labelled.Nodup ↔ ∀ kind, (labelsOf kind labelled).Nodup := by
  constructor
  · intro h kind
    refine List.Nodup.map_on ?_ (h.filter _)
    intro first hfirst second hsecond hsame
    have hkinds : first.1 = kind ∧ second.1 = kind :=
      ⟨of_decide_eq_true (mem_filter.mp hfirst).2, of_decide_eq_true (mem_filter.mp hsecond).2⟩
    exact Prod.ext (hkinds.1.trans hkinds.2.symm) hsame
  · intro h
    induction labelled with
    | nil => exact nodup_nil
    | cons entry rest ih =>
      refine nodup_cons.mpr ⟨fun hmem => ?_, ih fun kind => ?_⟩
      · have hhead := h entry.1
        rw [labelsOf_cons, if_pos rfl, nodup_cons] at hhead
        refine hhead.1 (mem_map.mpr ⟨entry, mem_filter.mpr ⟨hmem, ?_⟩, rfl⟩)
        exact decide_eq_true rfl
      · have htail := h kind
        rw [labelsOf_cons] at htail
        split at htail
        · exact (nodup_cons.mp htail).2
        · exact htail

/-- Sorting the events of some kinds by kind. -/
theorem flatMap_filter_perm {kind : Event → Kind} {kinds : List Kind} (hkinds : kinds.Nodup)
    (events : List Event) :
    (kinds.flatMap fun wanted => events.filter fun event => kind event = wanted).Perm
      (events.filter fun event => kind event ∈ kinds) := by
  induction kinds with
  | nil => simp
  | cons wanted rest ih =>
    obtain ⟨hwanted, hrest⟩ := nodup_cons.mp hkinds
    have hfirst : (events.filter fun event => kind event ∈ wanted :: rest).filter
        (fun event => kind event = wanted) = events.filter fun event => kind event = wanted := by
      rw [filter_filter]
      refine filter_congr fun event _ => ?_
      by_cases hkind : kind event = wanted <;> simp [hkind]
    have hothers : (events.filter fun event => kind event ∈ wanted :: rest).filter
        (fun event => !decide (kind event = wanted)) =
          events.filter fun event => kind event ∈ rest := by
      rw [filter_filter]
      refine filter_congr fun event _ => ?_
      by_cases hkind : kind event = wanted
      · simp [hkind, hwanted]
      · simp [hkind]
    rw [flatMap_cons]
    refine ((ih hrest).append_left _).trans ?_
    rw [← hfirst, ← hothers]
    exact filter_append_perm _ _

end Nobie.Foundation
