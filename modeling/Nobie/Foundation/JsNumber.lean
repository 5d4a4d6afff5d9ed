/-
# Numbers of the language

A number is finite, infinite or not a number. A finite one is kept exactly and the
two zeros are one. Comparing anything with what is not a number is false either
way, so `<` and `≥` are not each other's negations.
-/

import Mathlib.Data.Rat.Floor

namespace Nobie.Foundation

inductive JsNumber
  | nan | negInfinity
  | finite (value : ℚ)
  | infinity
  deriving DecidableEq

variable {first second bound third : JsNumber} {n : ℕ} (number : JsNumber)

namespace JsNumber

def ofNat (n : ℕ) : JsNumber := .finite n

/-- The comparison `<`. -/
def lt : JsNumber → JsNumber → Bool
  | .nan, _ | _, .nan => false
  | .finite first, .finite second => first < second
  | .negInfinity, second => second ≠ .negInfinity
  | .infinity, _ => false
  | .finite _, second => second = .infinity

/-- The comparison `<=`. -/
def le : JsNumber → JsNumber → Bool
  | .nan, _ | _, .nan => false
  | first, second => !lt second first

/-- `Math.floor`. -/
def floor : JsNumber → JsNumber
  | .finite value => .finite ⌊value⌋
  | number => number

/-- `Math.max` of two numbers. -/
def max (first second : JsNumber) : JsNumber :=
  if first = .nan ∨ second = .nan then .nan else if lt first second then second else first

/-- `Number.isFinite`. -/
def isFinite : JsNumber → Bool
  | .finite _ => true
  | _ => false

theorem lt_nan : lt number .nan = false := by
  cases number <;> rfl

theorem le_nan : le .nan number = false := rfl

@[simp]
theorem lt_ofNat_ofNat (first second : ℕ) :
    lt (ofNat first) (ofNat second) = decide (first < second) := by
  simp [lt, ofNat]

/-- Below what is above some number there is a number again. -/
theorem lt_of_lt_of_le {first second : ℕ} (hle : first ≤ second) (h : lt (ofNat second) bound) :
    lt (ofNat first) bound := by
  cases bound with
  | finite value =>
    simp only [lt, ofNat, decide_eq_true_eq] at h ⊢
    exact lt_of_le_of_lt (Nat.cast_le.mpr hle) h
  | infinity => rfl
  | nan | negInfinity => exact absurd h (by simp [lt, ofNat])

theorem lt_of_lt_of_lt (hfirst : lt first second) (hsecond : lt second third) : lt first third := by
  cases first <;> cases second <;> cases third <;> simp_all [lt]
  exact lt_trans hfirst hsecond

/-- What a positive bound is raised to is positive. -/
theorem lt_max_floor {number : JsNumber} (hlt : lt first second) (hnumber : number ≠ .nan) :
    lt first (max second (floor number)) := by
  have hsecond : second ≠ .nan := by
    rintro rfl
    rw [lt_nan] at hlt
    cases hlt
  have hfloor : floor number ≠ .nan := by cases number <;> simp_all [floor]
  rw [max, if_neg (by simp [hsecond, hfloor])]
  split
  · next hraise => exact lt_of_lt_of_lt hlt hraise
  · exact hlt

/-- A bound that is raised is above nothing that it was not above before. -/
theorem not_max_lt (h : lt first third = false) : lt (max first second) third = false := by
  unfold max
  split
  · exact rfl
  · split
    · next hraise =>
      refine Bool.eq_false_iff.mpr fun hlt => ?_
      exact absurd (lt_of_lt_of_lt hraise hlt) (by rw [h]; exact Bool.false_ne_true)
    · exact h

@[simp]
theorem floor_floor : floor (floor number) = floor number := by
  cases number <;> simp [floor]

theorem floor_max (hfirst : floor first = first) (hsecond : floor second = second) :
    floor (max first second) = max first second := by
  unfold max
  split
  · rfl
  · split
    · exact hsecond
    · exact hfirst

/-- A whole number above some natural number is not below the next one. -/
theorem not_lt_succ (hwhole : floor bound = bound) (h : lt (ofNat n) bound) :
    lt bound (ofNat (n + 1)) = false := by
  cases bound with
  | finite value =>
    obtain heq : (⌊value⌋ : ℚ) = value := by simpa [floor] using hwhole
    have hlt : (n : ℚ) < value := by simpa [lt, ofNat] using h
    rw [← heq] at hlt ⊢
    have hint : (n : ℤ) < ⌊value⌋ := by exact_mod_cast hlt
    have hnext : ((n + 1 : ℕ) : ℚ) ≤ ⌊value⌋ := by exact_mod_cast hint
    simpa [lt, ofNat] using hnext
  | infinity | nan => rfl
  | negInfinity => exact absurd h (by simp [lt, ofNat])

/-- What is not below a number is not below a smaller one. -/
theorem not_lt_of_le {first second : ℕ} (hle : first ≤ second) (h : lt bound (ofNat second) = false)
    : lt bound (ofNat first) = false := by
  refine Bool.eq_false_iff.mpr fun hlt => ?_
  rcases hle.eq_or_lt with rfl | hless
  · exact absurd hlt (by rw [h]; exact Bool.false_ne_true)
  · have hnat : lt (ofNat first) (ofNat second) := by simpa using hless
    exact absurd (lt_of_lt_of_lt hlt hnat) (by rw [h]; exact Bool.false_ne_true)

theorem le_of_lt (h : lt first second) : le first second := by
  cases first <;> cases second <;> simp_all [lt, le]
  exact h.le

/-! ## Counts against bounds -/

theorem le_ofNat_finite (n : ℕ) (value : ℚ) :
    le (ofNat n) (.finite value) = decide ((n : ℚ) ≤ value) := by
  simp [le, lt, ofNat, ← not_lt]

theorem finite_le_ofNat (value : ℚ) (n : ℕ) :
    le (.finite value) (ofNat n) = decide (value ≤ n) := by
  simp [le, lt, ofNat, ← not_lt]

/-- Whether a count keeps to a bound. -/
theorem le_ofNat_iff :
    le (ofNat n) bound ↔ bound = .infinity ∨ ∃ value : ℚ, bound = .finite value ∧ n ≤ value := by
  cases bound with
  | finite value => simp [le_ofNat_finite]
  | infinity | negInfinity => simp [le, lt, ofNat]
  | nan => simp [le, ofNat]

theorem ofNat_le_of_le {first second : ℕ} (hle : first ≤ second) (h : le (ofNat second) bound) :
    le (ofNat first) bound := by
  obtain rfl | ⟨value, rfl, hvalue⟩ := le_ofNat_iff.mp h
  · rfl
  · exact le_ofNat_iff.mpr (.inr ⟨value, rfl, (Nat.cast_le.mpr hle).trans hvalue⟩)

/-- A bound of at least one is its own maximum with one. -/
theorem max_one_of_le (h : le (ofNat 1) bound) : max (ofNat 1) bound = bound := by
  obtain rfl | ⟨value, rfl, hvalue⟩ := le_ofNat_iff.mp h
  · rfl
  · simp only [max, ofNat, lt, reduceCtorEq, or_self, if_false, decide_eq_true_eq]
    split
    · rfl
    · next hless =>
      rw [Nat.cast_one] at hvalue hless ⊢
      rw [le_antisymm hvalue (not_lt.mp hless)]

/-- The maximum with one is reached by no empty count. -/
theorem max_one_not_le_zero (bound : JsNumber) : le (max (ofNat 1) bound) (ofNat 0) = false := by
  cases bound with
  | finite value =>
    simp only [max, ofNat, lt, reduceCtorEq, or_self, if_false, decide_eq_true_eq]
    split
    · next hless =>
      rw [Nat.cast_one] at hless
      simpa [le, lt] using one_pos.trans hless
    · simp [le, lt]
  | infinity | nan => rfl
  | negInfinity => simp [max, ofNat, lt, le]

/-- What does not reach a whole bound leaves room for one more. -/
theorem succ_le_of_whole (hwhole : floor bound = bound) (hone : le (ofNat 1) bound)
    (h : le bound (ofNat n) = false) : le (ofNat (n + 1)) bound := by
  obtain rfl | ⟨value, rfl, -⟩ := le_ofNat_iff.mp hone
  · rfl
  · obtain heq : (⌊value⌋ : ℚ) = value := by simpa [floor] using hwhole
    rw [finite_le_ofNat, decide_eq_false_iff_not, not_le] at h
    rw [le_ofNat_finite, decide_eq_true_eq]
    rw [← heq] at h ⊢
    have hint : (n : ℤ) < ⌊value⌋ := by exact_mod_cast h
    exact_mod_cast hint

/-- A bound that a count reaches and keeps to is whole. -/
theorem whole_of_le_of_le (hreached : le bound (ofNat n)) (hkept : le (ofNat n) bound) :
    floor bound = bound := by
  obtain rfl | ⟨value, rfl, hvalue⟩ := le_ofNat_iff.mp hkept
  · rfl
  · rw [finite_le_ofNat, decide_eq_true_eq] at hreached
    rw [le_antisymm hreached hvalue]
    simp [floor]

end JsNumber

end Nobie.Foundation
