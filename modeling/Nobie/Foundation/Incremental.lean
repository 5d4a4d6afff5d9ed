/-
# Readers that take their input in pieces

A reader looks at the front of a buffer and either takes an item off it or waits for more. One
whose decision does not change when more input follows takes the same items off the whole input
and off the same input cut into pieces. A reader that looks for a terminator is of this kind,
since the first place of the terminator stays the first when the text grows.
-/

import Mathlib.Data.List.Infix

namespace Nobie.Foundation

open List

universe u v

variable {α : Type u} {β : Type v}

/-! ## Readers -/

/-- A reader takes off the front of a buffer something with at most one item in it. What it takes
does not depend on what follows. -/
structure Reader (α : Type u) (β : Type v) where
  next? : List α → Option (Option β × List α)
  shrinks : ∀ {buffer item rest}, next? buffer = some (item, rest) → rest.length < buffer.length
  grows : ∀ {buffer item rest} (more : List α), next? buffer = some (item, rest) →
    next? (buffer ++ more) = some (item, rest ++ more)

variable {buffer rest front : List α} {place : ℕ}

namespace Reader

variable (reader : Reader α β)

/-- Take items for a number of rounds. -/
def rounds : ℕ → List α → List β × List α
  | 0, buffer => ([], buffer)
  | fuel + 1, buffer =>
    match reader.next? buffer with
    | none => ([], buffer)
    | some (item, rest) => (item.toList ++ (rounds fuel rest).1, (rounds fuel rest).2)

/-- The items that a buffer holds, with what is left of it. -/
def consume (buffer : List α) : List β × List α := reader.rounds buffer.length buffer

variable {reader}

/-- Rounds beyond the length of the buffer find nothing to do. -/
theorem rounds_eq_consume {fuel : ℕ} (hfuel : buffer.length ≤ fuel) :
    reader.rounds fuel buffer = reader.consume buffer := by
  suffices h : ∀ first second : ℕ, buffer.length ≤ first → buffer.length ≤ second →
      reader.rounds first buffer = reader.rounds second buffer from h _ _ hfuel le_rfl
  intro first
  induction first generalizing buffer with
  | zero =>
    intro second hfirst _
    cases second with
    | zero => rfl
    | succ second =>
      cases hnext : reader.next? buffer with
      | none => simp only [rounds, hnext]
      | some taken =>
        have hshrinks := reader.shrinks hnext
        omega
  | succ first ih =>
    intro second hfirst hsecond
    cases hnext : reader.next? buffer with
    | none => cases second <;> simp only [rounds, hnext]
    | some taken =>
      have hshrinks := reader.shrinks hnext
      cases second with
      | zero => omega
      | succ second =>
        have hrest : reader.rounds first taken.2 = reader.rounds second taken.2 :=
          ih (by omega) second (by omega) (by omega)
        simp only [rounds, hnext, hrest]

theorem consume_of_none (hnext : reader.next? buffer = none) :
    reader.consume buffer = ([], buffer) := by
  rw [consume]
  cases buffer.length with
  | zero => rfl
  | succ fuel => simp only [rounds, hnext]

theorem consume_of_some {item : Option β} (hnext : reader.next? buffer = some (item, rest)) :
    reader.consume buffer = (item.toList ++ (reader.consume rest).1, (reader.consume rest).2) := by
  have hshrinks := reader.shrinks hnext
  obtain ⟨fuel, hfuel⟩ := Nat.exists_eq_add_one_of_ne_zero (Nat.ne_zero_of_lt hshrinks)
  have hrest : reader.rounds fuel rest = reader.consume rest := rounds_eq_consume (by omega)
  rw [consume, hfuel]
  simp only [rounds, hnext, hrest]

/-- Reading an input in two pieces takes the items of the whole. -/
theorem consume_append (buffer more : List α) :
    reader.consume (buffer ++ more) =
      ((reader.consume buffer).1 ++ (reader.consume ((reader.consume buffer).2 ++ more)).1,
        (reader.consume ((reader.consume buffer).2 ++ more)).2) := by
  induction hlength : buffer.length using Nat.strong_induction_on generalizing buffer with
  | _ length ih =>
    cases hnext : reader.next? buffer with
    | none =>
      rw [consume_of_none hnext]
      rfl
    | some taken =>
      obtain ⟨item, rest⟩ := taken
      have hrest := ih rest.length (hlength ▸ reader.shrinks hnext) rest rfl
      rw [consume_of_some (reader.grows more hnext), consume_of_some hnext, hrest]
      simp only [append_assoc]

end Reader

/-! ## The first place of a pattern -/

/-- A pattern without a letter lies on one side of it. -/
theorem infix_of_infix_append_cons {letter : α} {pattern : List α} (hletter : letter ∉ pattern)
    (hwithin : pattern <:+: front ++ letter :: rest) : pattern <:+: front ∨ pattern <:+: rest := by
  obtain ⟨before, after, heq⟩ := hwithin
  rw [append_assoc] at heq
  obtain ⟨middle, hfront, hrest⟩ | ⟨middle, hbefore, hrest⟩ := append_eq_append_iff.mp heq
  · -- the pattern begins before the letter, hence also ends there
    obtain ⟨tail, hmiddle, hafter⟩ | ⟨tail, hpattern, hafter⟩ := append_eq_append_iff.mp hrest
    · left
      exact ⟨before, tail, by rw [hfront, hmiddle, append_assoc]⟩
    · cases tail with
      | nil =>
        left
        refine ⟨before, [], ?_⟩
        rw [hpattern, hfront, append_nil, append_nil]
      | cons other tail =>
        obtain ⟨rfl, -⟩ := List.cons.inj hafter
        exact absurd (hpattern ▸ mem_append_cons_self) hletter
  · cases middle with
    | nil =>
      rw [nil_append] at hrest
      cases pattern with
      | nil => exact .inl nil_infix
      | cons other tail =>
        obtain ⟨rfl, -⟩ := List.cons.inj hrest
        exact absurd mem_cons_self hletter
    | cons other middle =>
      right
      obtain ⟨-, hrest⟩ := List.cons.inj hrest
      exact ⟨middle, after, by rw [append_assoc, hrest]; rfl⟩

section Pattern

variable [DecidableEq α] {pattern text : List α}

/-- The first place of a text at which a pattern begins. -/
def firstIndex? (pattern : List α) : List α → Option ℕ
  | [] => if pattern = [] then some 0 else none
  | first :: rest =>
    if pattern <+: first :: rest then some 0 else (firstIndex? pattern rest).map (· + 1)

theorem prefix_drop_of_firstIndex? (h : firstIndex? pattern text = some place) :
    pattern <+: text.drop place := by
  induction text generalizing place with
  | nil =>
    rw [firstIndex?] at h
    split_ifs at h with hpattern
    rw [hpattern]
    exact nil_prefix
  | cons first rest ih =>
    rw [firstIndex?] at h
    split_ifs at h with hstarts
    · cases h
      exact hstarts
    · obtain ⟨before, hbefore, rfl⟩ := Option.map_eq_some_iff.mp h
      exact ih hbefore

section

variable (hpattern : pattern ≠ []) (h : firstIndex? pattern text = some place)
include hpattern h

theorem length_le_of_firstIndex? : place + pattern.length ≤ text.length := by
  have hlength := (prefix_drop_of_firstIndex? h).length_le
  have hpos := length_pos_iff.mpr hpattern
  rw [length_drop] at hlength
  omega

/-- The first place stays the first when the text grows. -/
theorem firstIndex?_append
    (more : List α) : firstIndex? pattern (text ++ more) = some place := by
  induction text generalizing place with
  | nil => simp [firstIndex?, hpattern] at h
  | cons first rest ih =>
    rw [firstIndex?] at h
    rw [cons_append, firstIndex?]
    split_ifs at h with hstarts
    · cases h
      exact if_pos (hstarts.trans (prefix_append (first :: rest) more))
    · obtain ⟨before, hbefore, rfl⟩ := Option.map_eq_some_iff.mp h
      have hlength := length_le_of_firstIndex? hpattern hbefore
      have hnot : ¬ pattern <+: first :: (rest ++ more) := by
        intro hgrown
        refine hstarts (@List.prefix_of_prefix_length_le _ _ _ (first :: (rest ++ more)) hgrown
          (prefix_append (first :: rest) more) ?_)
        simp only [length_cons]
        omega
      rw [if_neg hnot, ih hbefore]
      rfl

end

/-- A pattern that does not occur before it is completed at some place is found there. -/
theorem firstIndex?_of_not_infix (hpattern : pattern ≠ [])
    (hnot : ¬ pattern <:+: front ++ pattern.dropLast) (rest : List α) :
    firstIndex? pattern (front ++ (pattern ++ rest)) = some front.length := by
  induction front with
  | nil =>
    have hstarts : pattern <+: pattern ++ rest := prefix_append pattern rest
    rw [nil_append]
    cases htext : pattern ++ rest with
    | nil => exact absurd (append_eq_nil_iff.mp htext).1 hpattern
    | cons first others =>
      rw [firstIndex?, if_pos (htext ▸ hstarts)]
      rfl
  | cons first others ih =>
    have hothers : ¬ pattern <:+: others ++ pattern.dropLast := fun hwithin =>
      hnot (hwithin.trans (suffix_cons first _).isInfix)
    have hfront : ¬ pattern <+: first :: (others ++ (pattern ++ rest)) := by
      intro hstarts
      apply hnot
      have hbound : first :: others ++ pattern.dropLast <+:
          first :: (others ++ (pattern ++ rest)) := by
        have hlast : pattern.dropLast <+: pattern ++ rest :=
          (List.dropLast_prefix pattern).trans (prefix_append pattern rest)
        simpa using (prefix_append_right_inj (first :: others)).mpr hlast
      refine (prefix_of_prefix_length_le hstarts hbound ?_).isInfix
      simp only [cons_append, length_cons, length_append, length_dropLast]
      omega
    rw [cons_append, firstIndex?, if_neg hfront, ih hothers]
    rfl

end Pattern

end Nobie.Foundation
