/-
# Effects that throw and keep their state

An asynchronous function of the host changes its objects as it goes, and what it has
changed stays changed when it throws. `EStateM` over a state without roll-back is this.
The rules below evaluate throwing and catching; the others are the standard library's.
-/

import Mathlib.Logic.Basic

namespace Nobie.Foundation.Effects

variable {Error State Value Other : Type}

variable (error : Error) (state : State) {result : EStateM.Result Error State Value} {value : Value}
  {first : EStateM Error State Other} {next : Other → EStateM Error State Value}
  {effect body : EStateM Error State Value}

@[simp]
theorem run_tryCatch (body : EStateM Error State Value)
    (handler : Error → EStateM Error State Value) (state : State) :
    (tryCatch body handler).run state =
      match body.run state with
      | .ok value last => .ok value last
      | .error error last => (handler error).run last := by
  change EStateM.tryCatch body handler state = _
  unfold EStateM.tryCatch EStateM.run
  cases body state with
  | ok | error => rfl

/-- Whether an effect threw, told to its caller instead of thrown. -/
def attempt (body : EStateM Error State Value) : EStateM Error State (Option Error) :=
  tryCatch (do let _ ← body; pure none) fun error => pure (some error)

@[simp]
theorem run_attempt (body : EStateM Error State Value) (state : State) :
    (attempt body).run state =
      match body.run state with
      | .ok _ last => .ok none last
      | .error error last => .ok (some error) last := by
  unfold attempt
  rw [run_tryCatch, EStateM.run_bind]
  cases body.run state with
  | ok | error => rfl

/-- A result with its state forgotten. -/
def settled : EStateM.Result Error State Value → Except Error Value
  | .ok value _ => .ok value
  | .error error _ => .error error

/-- The state a result leaves. -/
def stateAfter : EStateM.Result Error State Value → State
  | .ok _ state | .error _ state => state

@[simp]
theorem settled_ok (value : Value) (state : State) :
    settled (.ok value state : EStateM.Result Error State Value) = .ok value :=
  rfl

@[simp]
theorem settled_error :
    settled (.error error state : EStateM.Result Error State Value) = .error error :=
  rfl

@[simp]
theorem stateAfter_ok (value : Value) (state : State) :
    stateAfter (.ok value state : EStateM.Result Error State Value) = state :=
  rfl

@[simp]
theorem stateAfter_error :
    stateAfter (.error error state : EStateM.Result Error State Value) = state :=
  rfl

/-- A result is what it settled with, and the state it leaves. -/
theorem eq_ok_of_settled (hsettled : settled result = .ok value) :
    result = .ok value (stateAfter result) := by
  cases result with
  | ok found state =>
    cases hsettled
    rfl
  | error error state => cases hsettled

theorem eq_error_of_settled {error : Error} (hsettled : settled result = .error error) :
    result = .error error (stateAfter result) := by
  cases result with
  | ok found state => cases hsettled
  | error found state =>
    obtain rfl := Except.error.inj hsettled
    rfl

/-! ## What an effect does from the states it can meet -/

/-- From every state with `before`, the effect returns with `after`, or throws with
`thrown`. -/
def Triple (before : State → Prop) (effect : EStateM Error State Value)
    (after : Value → State → Prop) (thrown : State → Prop) : Prop :=
  ∀ state, before state →
    match effect.run state with
    | .ok value last => after value last
    | .error _ last => thrown last

namespace Triple

variable {before middle : State → Prop} {after : Value → State → Prop} {thrown : State → Prop}

theorem pure (hvalue : ∀ state, before state → after value state) :
    Triple before (Pure.pure value : EStateM Error State Value) after thrown :=
  fun state hstate => hvalue state hstate

theorem throw {error : Error} (hthrown : ∀ state, before state → thrown state) :
    Triple before (throw error : EStateM Error State Value) after thrown :=
  fun state hstate => hthrown state hstate

theorem modify {change : State → State} {after : Unit → State → Prop}
    (hchange : ∀ state, before state → after () (change state)) :
    Triple before (modify change : EStateM Error State Unit) after thrown :=
  fun state hstate => hchange state hstate

theorem bind {between : Other → State → Prop} (hfirst : Triple before first between thrown)
    (hnext : ∀ value, Triple (between value) (next value) after thrown) :
    Triple before (first >>= next) after thrown := by
  intro state hstate
  have hrun := hfirst state hstate
  rw [EStateM.run_bind]
  cases hresult : first.run state with
  | ok value last =>
    rw [hresult] at hrun
    exact hnext value last hrun
  | error error last =>
    rw [hresult] at hrun
    exact hrun

/-- The rule of sequence with the state in between named. -/
theorem bindThrough (between : Other → State → Prop) (hfirst : Triple before first between thrown)
    (hnext : ∀ value, Triple (between value) (next value) after thrown) :
    Triple before (first >>= next) after thrown :=
  bind hfirst hnext

theorem get {next : State → EStateM Error State Value}
    (hnext : ∀ state, before state → Triple (· = state) (next state) after thrown) :
    Triple before (MonadState.get >>= next) after thrown := by
  intro state hstate
  exact hnext state hstate state rfl

/-- What holds of every state alone may be used in the proof. -/
theorem atState (heffect : ∀ state, before state → Triple (· = state) effect after thrown) :
    Triple before effect after thrown :=
  fun state hstate => heffect state hstate state rfl

theorem assuming {assumption : Prop} (heffect : assumption → Triple before effect after thrown) :
    Triple (fun state => before state ∧ assumption) effect after thrown :=
  fun state hstate => heffect hstate.2 state hstate.1

theorem weaken {stronger : State → Prop} {weaker : Value → State → Prop}
    (htriple : Triple before effect after thrown) (hbefore : ∀ state, stronger state → before state)
    (hafter : ∀ value state, after value state → weaker value state) :
    Triple stronger effect weaker thrown := by
  intro state hstate
  have hrun := htriple state (hbefore state hstate)
  cases hresult : effect.run state with
  | ok value last =>
    rw [hresult] at hrun
    exact hafter value last hrun
  | error error last =>
    rw [hresult] at hrun
    exact hrun

theorem tryCatch {handler : Error → EStateM Error State Value} {caught : State → Prop}
    (hbody : Triple before body after caught)
    (hhandler : ∀ error, Triple caught (handler error) after thrown) :
    Triple before (MonadExcept.tryCatch body handler) after thrown := by
  intro state hstate
  have hrun := hbody state hstate
  rw [run_tryCatch]
  cases hresult : body.run state with
  | ok value last =>
    rw [hresult] at hrun
    exact hrun
  | error error last =>
    rw [hresult] at hrun
    exact hhandler error last hrun

theorem attempt {invariant : State → Prop}
    (hbody : Triple before body (fun _ => invariant) invariant) :
    Triple before (Effects.attempt body) (fun _ => invariant) thrown := by
  intro state hstate
  have hrun := hbody state hstate
  rw [run_attempt]
  cases hresult : body.run state with
  | ok | error =>
    rw [hresult] at hrun
    exact hrun

end Triple

end Nobie.Foundation.Effects
