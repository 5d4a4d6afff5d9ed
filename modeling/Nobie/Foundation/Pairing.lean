/-
# Names and their owners

Owners have names and every name has one owner: two partial functions that are inverse to each
other. While an owner changes its name they agree on all the others; they are inverse again
once all the old names of the owner are given up and the new one, which nobody else has, is
entered.
-/

import Mathlib.Data.Option.Basic

namespace Nobie.Foundation

variable {Owner Name : Type}

/-- A name is entered for an owner exactly when the owner has it. -/
def Paired (ownerOf : Name → Option Owner) (nameOf : Owner → Option Name) : Prop :=
  ∀ name owner, ownerOf name = some owner ↔ nameOf owner = some name

/-- The same of all owners but one. -/
def PairedExcept (changing : Owner) (ownerOf : Name → Option Owner)
    (nameOf : Owner → Option Name) : Prop :=
  ∀ name owner, owner ≠ changing → (ownerOf name = some owner ↔ nameOf owner = some name)

/-- Giving up all the names of an owner. -/
def release [DecidableEq Owner] (ownerOf : Name → Option Owner) (changing : Owner)
    (name : Name) : Option Owner :=
  (ownerOf name).filter fun owner => owner ≠ changing

/-- Giving up all the names of an owner and entering one. -/
def claim [DecidableEq Owner] [DecidableEq Name] (ownerOf : Name → Option Owner)
    (changing : Owner) (wanted name : Name) : Option Owner :=
  if wanted = name then some changing else release ownerOf changing name

variable {ownerOf : Name → Option Owner} {nameOf : Owner → Option Name} {changing : Owner}

theorem release_eq_some [DecidableEq Owner] {name : Name} {owner : Owner} :
    release ownerOf changing name = some owner ↔ ownerOf name = some owner ∧ owner ≠ changing := by
  unfold release
  rw [Option.filter_eq_some_iff, decide_eq_true_eq]

/-- What an owner's name becomes is of no concern to the others. -/
theorem Paired.change {nameOf' : Owner → Option Name} (h : Paired ownerOf nameOf)
    (hothers : ∀ owner, owner ≠ changing → nameOf' owner = nameOf owner) :
    PairedExcept changing ownerOf nameOf' := by
  intro name owner howner
  rw [hothers owner howner]
  exact h name owner

theorem PairedExcept.release [DecidableEq Owner] (h : PairedExcept changing ownerOf nameOf)
    (hname : nameOf changing = none) : Paired (release ownerOf changing) nameOf := by
  intro name owner
  rw [release_eq_some]
  constructor
  · rintro ⟨hentered, howner⟩
    exact (h name owner howner).mp hentered
  · intro hhas
    have howner : owner ≠ changing := by
      rintro rfl
      rw [hname] at hhas
      cases hhas
    exact ⟨(h name owner howner).mpr hhas, howner⟩

theorem PairedExcept.claim [DecidableEq Owner] [DecidableEq Name] {wanted : Name} (h : PairedExcept changing ownerOf nameOf)
    (hname : nameOf changing = some wanted)
    (havailable : ∀ owner, ownerOf wanted = some owner → owner = changing) :
    Paired (claim ownerOf changing wanted) nameOf := by
  intro name owner
  unfold Foundation.claim
  split
  · rename_i hwanted
    subst hwanted
    constructor
    · intro hentered
      cases hentered
      exact hname
    · intro hhas
      by_cases howner : owner = changing
      · rw [howner]
      · exact absurd (havailable owner ((h wanted owner howner).mpr hhas)) howner
  · rename_i hwanted
    rw [release_eq_some]
    constructor
    · rintro ⟨hentered, howner⟩
      exact (h name owner howner).mp hentered
    · intro hhas
      have howner : owner ≠ changing := by
        rintro rfl
        exact hwanted (Option.some.inj (hname.symm.trans hhas))
      exact ⟨(h name owner howner).mpr hhas, howner⟩

end Nobie.Foundation
