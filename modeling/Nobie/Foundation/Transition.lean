/-
# Runs of a labelled step relation

A component is given by its states, the labels of its steps and a step relation.
A run lists the labels taken. Two rules carry every result about runs: what each
step preserves holds at the end of a run, and what each step that meets a
condition preserves holds at the end of a run whose steps all meet it.
-/

import Mathlib.Data.List.Basic

namespace Nobie.Foundation

universe u v

variable {State : Type u} {Label : Type v}

/-- The runs of a step relation, from one state to another. -/
inductive Run (step : State → Label → State → Prop) : State → List Label → State → Prop
  | start (state : State) : Run step state [] state
  | extend {first last next : State} {labels : List Label}
      (prior : Run step first labels last) (label : Label) (taken : step last label next) :
      Run step first (labels ++ [label]) next

/-- A step relation restricted to the steps that meet a condition on the state
before the step and the label. -/
def Meeting (condition : State → Label → Prop) (step : State → Label → State → Prop) :
    State → Label → State → Prop :=
  fun state label next => condition state label ∧ step state label next

/-- A step relation restricted to the steps that lead to a good state. -/
def Reaching (good : State → Prop) (step : State → Label → State → Prop) :
    State → Label → State → Prop :=
  fun state label next => good next ∧ step state label next

/-- A step relation restricted to the steps that stand in a good relation. -/
def Keeping (good : State → State → Prop) (step : State → Label → State → Prop) :
    State → Label → State → Prop :=
  fun state label next => good state next ∧ step state label next

namespace Run

variable {step : State → Label → State → Prop}

/-- What every step preserves whose label meets a condition holds at the end of a run
whose labels all meet it. -/
theorem invariant_of_labels {condition : Label → Prop} (Inv : State → Prop)
    (hstep : ∀ state label next, Inv state → condition label → step state label next → Inv next)
    {first last : State} {labels : List Label} (run : Run step first labels last)
    (hfirst : Inv first) (hlabels : ∀ label ∈ labels, condition label) : Inv last := by
  induction run with
  | start => exact hfirst
  | extend prior label taken ih =>
    have hprior := ih fun other hother => hlabels other (List.mem_append_left _ hother)
    exact hstep _ _ _ hprior (hlabels label (List.mem_append_cons_self)) taken

/-- One step is a run. -/
theorem single {state next : State} {label : Label} (taken : step state label next) :
    Run step state [label] next := by
  simpa using (Run.start state).extend label taken

/-- Runs compose. -/
theorem append {first middle last : State} {before after : List Label}
    (hbefore : Run step first before middle) (hafter : Run step middle after last) :
    Run step first (before ++ after) last := by
  induction hafter with
  | start => simpa using hbefore
  | extend prior label taken ih =>
    rw [← List.append_assoc]
    exact ih.extend label taken

/-- What every step preserves holds at the end of a run. -/
theorem invariant {Inv : State → Prop}
    (hstep : ∀ state label next, Inv state → step state label next → Inv next) {first last : State}
    {labels : List Label} (run : Run step first labels last) (hfirst : Inv first) : Inv last := by
  induction run with
  | start => exact hfirst
  | extend prior label taken ih => exact hstep _ _ _ ih taken

/-- A run of one relation is a run of every relation that allows its steps. -/
theorem mono {step' : State → Label → State → Prop}
    (himp : ∀ state label next, step state label next → step' state label next) {first last : State}
    {labels : List Label} (run : Run step first labels last) : Run step' first labels last := by
  induction run with
  | start => exact .start _
  | extend prior label taken ih => exact ih.extend label (himp _ _ _ taken)

/-- What a step preserves when it meets a condition holds at the end of a run
whose steps all meet it. -/
theorem invariant_of_meeting {condition : State → Label → Prop} {Inv : State → Prop}
    (hstep : ∀ state label next, Inv state → condition state label →
      step state label next → Inv next)
    {first last : State} {labels : List Label}
    (run : Run (Meeting condition step) first labels last) (hfirst : Inv first) : Inv last :=
  run.invariant (fun state label next hinv taken =>
    hstep state label next hinv taken.1 taken.2) hfirst

/-- Where the steps from states of an invariant are steps of another relation, a run is one of
the other relation. -/
theorem mono_of_invariant {step' : State → Label → State → Prop} (Inv : State → Prop)
    (hinv : ∀ state label next, Inv state → step state label next → Inv next)
    (himp : ∀ state label next, Inv state → step state label next → step' state label next)
    {first last : State} {labels : List Label} (run : Run step first labels last)
    (hfirst : Inv first) : Run step' first labels last := by
  suffices h : Inv last ∧ Run step' first labels last from h.2
  induction run with
  | start => exact ⟨hfirst, .start _⟩
  | extend prior label taken ih =>
    obtain ⟨hlast, hrun⟩ := ih
    exact ⟨hinv _ _ _ hlast taken, hrun.extend label (himp _ _ _ hlast taken)⟩

/-- Where a step is good exactly if it meets a condition, all steps of a run are good exactly
if all of them meet the condition. The invariant may use that the steps before were good. -/
theorem keeping_iff_meeting (Inv : State → Prop) {condition : State → Label → Prop}
    {good : State → State → Prop}
    (hinv : ∀ state label next, Inv state → good state next → step state label next → Inv next)
    (hstep : ∀ state label next, Inv state → step state label next →
      (good state next ↔ condition state label))
    {first last : State} {labels : List Label} (hfirst : Inv first) :
    Run (Keeping good step) first labels last ↔ Run (Meeting condition step) first labels last := by
  constructor
  · intro run
    refine run.mono_of_invariant Inv (fun _ _ _ h taken => hinv _ _ _ h taken.1 taken.2) ?_ hfirst
    exact fun _ _ _ h taken => ⟨(hstep _ _ _ h taken.2).mp taken.1, taken.2⟩
  · intro run
    refine run.mono_of_invariant Inv (fun _ _ _ h taken => ?_) (fun _ _ _ h taken => ?_) hfirst
    · exact hinv _ _ _ h ((hstep _ _ _ h taken.2).mpr taken.1) taken.2
    · exact ⟨(hstep _ _ _ h taken.2).mpr taken.1, taken.2⟩

/-- Where a step from a good state leads to a good state exactly if it meets a condition,
all states of a run are good exactly if all its steps meet the condition. -/
theorem reaching_iff_meeting (Inv : State → Prop) {condition : State → Label → Prop}
    {good : State → Prop}
    (hinv : ∀ state label next, Inv state → step state label next → Inv next)
    (hstep : ∀ state label next, Inv state → good state → step state label next →
      (good next ↔ condition state label))
    {first last : State} {labels : List Label} (hfirst : Inv first) (hgood : good first) :
    Run (Reaching good step) first labels last ↔ Run (Meeting condition step) first labels last := by
  apply keeping_iff_meeting (fun state => Inv state ∧ good state) ?_ ?_ ⟨hfirst, hgood⟩
  · exact fun _ _ _ h hnext taken => ⟨hinv _ _ _ h.1 taken, hnext⟩
  · exact fun _ _ _ h taken => hstep _ _ _ h.1 h.2 taken

/-- Where every state of an invariant is good, all states of every run are good. -/
theorem reaching_iff (Inv : State → Prop) {good : State → Prop}
    (hinv : ∀ state label next, Inv state → step state label next → Inv next)
    (hgood : ∀ state, Inv state → good state) {first last : State} {labels : List Label}
    (hfirst : Inv first) :
    Run (Reaching good step) first labels last ↔ Run step first labels last := by
  refine ⟨mono fun _ _ _ taken => taken.2, fun run => run.mono_of_invariant Inv hinv ?_ hfirst⟩
  exact fun _ _ _ h taken => ⟨hgood _ (hinv _ _ _ h taken), taken⟩

end Run

/-- The step relation of a step function that can refuse a label. -/
def Takes (step? : State → Label → Option State) : State → Label → State → Prop :=
  fun state label next => step? state label = some next

/-- Executing labels one after the other. -/
def execute (step? : State → Label → Option State) : State → List Label → Option State
  | state, [] => some state
  | state, label :: labels => (step? state label).bind fun next => execute step? next labels

/-- An execution is a run. -/
theorem Run.of_execute {step? : State → Label → Option State} {first last : State}
    {labels : List Label} (h : execute step? first labels = some last) :
    Run (Takes step?) first labels last := by
  induction labels generalizing first with
  | nil =>
    obtain rfl : first = last := by simpa [execute] using h
    exact .start first
  | cons label labels ih =>
    simp only [execute, Option.bind_eq_some_iff] at h
    obtain ⟨next, hnext, hrest⟩ := h
    have hfirst : Run (Takes step?) first [label] next := Run.single hnext
    exact hfirst.append (ih hrest)

/-- A step function that refuses the steps that do not meet a condition. -/
def guarded (condition : State → Label → Prop) [∀ state label, Decidable (condition state label)]
    (step? : State → Label → Option State) (state : State) (label : Label) : Option State :=
  if condition state label then step? state label else none

/-- An execution of the guarded steps is a run whose steps all meet the condition. -/
theorem Run.of_execute_guarded {condition : State → Label → Prop}
    [∀ state label, Decidable (condition state label)] {step? : State → Label → Option State}
    {first last : State} {labels : List Label}
    (h : execute (guarded condition step?) first labels = some last) :
    Run (Meeting condition (Takes step?)) first labels last := by
  refine (Run.of_execute h).mono fun state label next taken => ?_
  obtain ⟨hmeets, hnext⟩ := ite_eq_iff.mp taken |>.resolve_right fun hnone => nomatch hnone.2
  exact ⟨hmeets, hnext⟩

end Nobie.Foundation
