/-
# Loops that run down

A loop repeats its body until the body has nothing to do. When every round makes a
measure smaller it comes to an end, and three rules say what is known there: the loop
ended because the body stopped, the end was reached by rounds of the body, and what
every round keeps holds at the end. A loop can be joined at any round on its way.
-/

import Mathlib.Data.Nat.Notation
import Mathlib.Logic.Relation

namespace Nobie.Foundation

universe u

variable {State : Type u}

/-- Every round makes the measure smaller. -/
def RunsDown (body : State → Option State) (measure : State → ℕ) : Prop :=
  ∀ state next, body state = some next → measure next < measure state

/-- The state in which the body stops. -/
def loop (body : State → Option State) (measure : State → ℕ) (hdown : RunsDown body measure)
    (state : State) : State :=
  match hround : body state with
  | none => state
  | some next => loop body measure hdown next
termination_by measure state
decreasing_by exact hdown state next hround

/-- Some rounds of the body lead from one state to the other. -/
def Rounds (body : State → Option State) : State → State → Prop :=
  Relation.ReflTransGen fun state next => body state = some next

section

variable {body : State → Option State} {measure : State → ℕ} (hdown : RunsDown body measure)

theorem loop_of_some {state next : State} (hround : body state = some next) :
    loop body measure hdown state = loop body measure hdown next := by
  rw [loop]
  split
  · next hstop =>
    rw [hround] at hstop
    cases hstop
  · next other hother =>
    rw [hround] at hother
    rw [Option.some.inj hother]

/-- The loop ends where some rounds lead and where the body stops. -/
theorem rounds_loop (state : State) :
    Rounds body state (loop body measure hdown state) ∧
      body (loop body measure hdown state) = none := by
  fun_induction loop body measure hdown state with
  | case1 state hstop => exact ⟨.refl, hstop⟩
  | case2 state next hround ih => exact ⟨.head hround ih.1, ih.2⟩

/-- A loop joined on its way ends in the same state. -/
theorem loop_eq_of_rounds {first later : State} (hrounds : Rounds body first later) :
    loop body measure hdown first = loop body measure hdown later := by
  induction hrounds with
  | refl => rfl
  | tail _ hround ih => exact ih.trans (loop_of_some hdown hround)

end

/-- What every round keeps is kept by some rounds. -/
theorem Rounds.invariant {body : State → Option State} (Inv : State → Prop)
    (hround : ∀ state next, Inv state → body state = some next → Inv next)
    {first last : State} (hrounds : Rounds body first last) (hfirst : Inv first) : Inv last := by
  induction hrounds with
  | refl => exact hfirst
  | tail _ htaken ih => exact hround _ _ ih htaken

end Nobie.Foundation
