import Mathlib.Logic.Relation

/-!
# Reachable states

The states of a system that takes inputs one after another. In a state only some inputs are
allowed; what an allowed input preserves holds in every reachable state.
-/

namespace IouAi.Runs

variable {σ ι : Type*} {init : σ} {allowed : σ → ι → Prop} {step : σ → ι → σ}

/-- The states of runs from `init`. -/
inductive Reachable (init : σ) (allowed : σ → ι → Prop) (step : σ → ι → σ) : σ → Prop
  | init : Reachable init allowed step init
  | step {state : σ} {input : ι} :
      Reachable init allowed step state → allowed state input →
        Reachable init allowed step (step state input)

/-- The induction rule of invariants. -/
theorem Reachable.invariant {P : σ → Prop} (hinit : P init)
    (hstep : ∀ state input, P state → allowed state input → P (step state input)) {state : σ}
    (h : Reachable init allowed step state) : P state := by
  induction h with
  | init => exact hinit
  | step _ hallowed ih => exact hstep _ _ ih hallowed

/-- What one move of a relation preserves, any number of moves preserves. -/
theorem reflTransGen_preserves {r : σ → σ → Prop} {P : σ → Prop}
    (hmove : ∀ x y, r x y → P x → P y) {x y : σ} (h : Relation.ReflTransGen r x y) (hx : P x) :
    P y := by
  induction h with
  | refl => exact hx
  | tail _ hr ih => exact hmove _ _ hr ih

end IouAi.Runs
