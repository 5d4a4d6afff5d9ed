/-
# Words behind marks

Words are written one after another, each behind one mark. The mark begins and ends with a
sign that it has nowhere between. Where no word has the mark, but for its last sign, within
it, the words can be read back from what is written.
-/

import Mathlib.Data.List.Infix

namespace Nobie.Foundation

open List

universe u

variable {A : Type u}

variable {first second : List (List A)}

namespace MarkedWords

variable (sign : A) (name : List A)

/-- The mark without its last sign. -/
def stem : List A := sign :: name

/-- A word behind its mark. -/
def block (word : List A) : List A := stem sign name ++ sign :: word

/-- The words one after another. -/
def write (words : List (List A)) : List A := words.flatMap (block sign name)

variable {sign name}

/-- What is written begins with a mark or is empty. -/
theorem write_eq (words : List (List A)) :
    write sign name words = [] ∨ ∃ rest, write sign name words = stem sign name ++ sign :: rest := by
  cases words with
  | nil => exact .inl rfl
  | cons word words =>
    refine .inr ⟨word ++ write sign name words, ?_⟩
    simp [write, block]

/-- A word cannot be continued up to the end of another one. -/
theorem eq_nil_of_append_eq {extra rest : List A} {words : List (List A)}
    (hname : sign ∉ name) (hextra : ¬ stem sign name <+: extra)
    (hrest : rest = [] ∨ ∃ more, rest = stem sign name ++ sign :: more)
    (hsame : write sign name words = extra ++ rest) : extra = [] := by
  by_contra hsome
  have hmark : ∃ more, extra ++ rest = stem sign name ++ sign :: more := by
    obtain hnil | ⟨more, hmore⟩ := @write_eq A sign name words
    · rw [hnil] at hsame
      exact absurd (append_eq_nil_iff.mp hsame.symm).1 hsome
    · exact ⟨more, hsame ▸ hmore⟩
  obtain ⟨more, hmore⟩ := hmark
  obtain ⟨first, tail, rfl⟩ := exists_cons_of_ne_nil hsome
  obtain ⟨middle, hstem, hafter⟩ | ⟨middle, hword, -⟩ := append_eq_append_iff.mp hmore
  · -- the extra part ends within the stem, so a sign stands where the name goes on
    cases middle with
    | nil =>
      rw [append_nil] at hstem
      exact hextra (hstem ▸ prefix_rfl)
    | cons next middle =>
      obtain rfl | ⟨further, rfl⟩ := hrest
      · exact absurd hafter.symm (cons_ne_nil _ _)
      · obtain rfl : sign = next := (List.cons.inj hafter).1
        obtain ⟨-, htail⟩ := List.cons.inj hstem
        exact hname (htail ▸ mem_append_cons_self)
  · exact hextra (hword ▸ prefix_append _ _)

/-- Of two texts with words written behind them that come out the same, one is the other or
goes on where the other ends with the mark but for its last sign. -/
theorem base_eq_or_initial {left right : List A} (hname : sign ∉ name)
    (hsame : left ++ write sign name first = right ++ write sign name second) :
    left = right ∨ left ++ stem sign name <+: right ∨ right ++ stem sign name <+: left := by
  obtain ⟨extra, hright, hafter⟩ | ⟨extra, hleft, hafter⟩ := append_eq_append_iff.mp hsame
  · by_cases hbegins : stem sign name <+: extra
    · exact .inr (.inl (hright ▸ (prefix_append_right_inj left).mpr hbegins))
    · rw [eq_nil_of_append_eq hname hbegins (write_eq second) hafter, append_nil] at hright
      exact .inl hright.symm
  · by_cases hbegins : stem sign name <+: extra
    · exact .inr (.inr (hleft ▸ (prefix_append_right_inj right).mpr hbegins))
    · rw [eq_nil_of_append_eq hname hbegins (write_eq first) hafter, append_nil] at hleft
      exact .inl hleft

/-- The words can be read back. -/
theorem write_injOn (hname : sign ∉ name) (hfirst : ∀ word ∈ first, ¬ stem sign name <:+: word)
    (hsecond : ∀ word ∈ second, ¬ stem sign name <:+: word)
    (hsame : write sign name first = write sign name second) : first = second := by
  induction first generalizing second with
  | nil =>
    cases second with
    | nil => rfl
    | cons word words => exact absurd hsame (by simp [write, block, stem])
  | cons left lefts ih =>
    cases second with
    | nil => exact absurd hsame (by simp [write, block, stem])
    | cons right rights =>
      have hcut : left ++ write sign name lefts = right ++ write sign name rights := by
        have hblocks : block sign name left ++ write sign name lefts =
            block sign name right ++ write sign name rights := hsame
        simpa [block] using hblocks
      have hword : left = right := by
        obtain ⟨extra, hright, hafter⟩ | ⟨extra, hleft, hafter⟩ := append_eq_append_iff.mp hcut
        · have hnil : extra = [] := by
            refine eq_nil_of_append_eq hname (fun hbegins => ?_) (write_eq rights) hafter
            exact hsecond right mem_cons_self
              (hright ▸ hbegins.isInfix.trans (suffix_append _ _).isInfix)
          rw [hright, hnil, append_nil]
        · have hnil : extra = [] := by
            refine eq_nil_of_append_eq hname (fun hbegins => ?_) (write_eq lefts) hafter
            exact hfirst left mem_cons_self
              (hleft ▸ hbegins.isInfix.trans (suffix_append _ _).isInfix)
          rw [hleft, hnil, append_nil]
      subst hword
      rw [ih (fun word hmem => hfirst word (mem_cons_of_mem _ hmem))
        (fun word hmem => hsecond word (mem_cons_of_mem _ hmem))
        (append_cancel_left hcut)]

end MarkedWords

end Nobie.Foundation
