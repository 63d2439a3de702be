import Mathlib.Data.List.Basic

/-! Interleavings of two parties on one state: what the second observes is what it observes
alone, if no step of the first changes what the second sees. -/
namespace DatafusionPostgres.Library

section Unwinding
variable {σ ι κ ω : Type} (first : σ → ι → σ) (second : σ → κ → σ) (observe : σ → κ → ω)

/-- What the second party observes of its own steps. -/
def observations : σ → List (ι ⊕ κ) → List ω
  | _, [] => []
  | s, .inl i :: steps => observations (first s i) steps
  | s, .inr k :: steps => observe s k :: observations (second s k) steps

/-- The condition holds of the steps of the first party, in the states that they are taken in. -/
def FirstMeets (cond : σ → ι → Prop) : σ → List (ι ⊕ κ) → Prop
  | _, [] => True
  | s, .inl i :: steps => cond s i ∧ FirstMeets cond (first s i) steps
  | s, .inr k :: steps => FirstMeets cond (second s k) steps

variable {first second observe} {cond : σ → ι → Prop} {sees : σ → σ → Prop}

/-- The states of the two runs agree on all that the second party sees. -/
theorem observations_alone (hfirst : ∀ s t i, cond s i → sees s t → sees (first s i) t)
    (hsecond : ∀ s t k, sees s t → sees (second s k) (second t k))
    (hobserve : ∀ s t k, sees s t → observe s k = observe t k) {s t : σ} {steps : List (ι ⊕ κ)}
    (hmeet : FirstMeets first second cond s steps) (hsees : sees s t) :
    observations first second observe s steps =
      observations first second observe t (steps.filter Sum.isRight) := by
  induction steps generalizing s t with
  | nil => rfl
  | cons step steps ih =>
    cases step with
    | inl i => exact ih hmeet.2 (hfirst s t i hmeet.1 hsees)
    | inr k =>
      rw [List.filter_cons_of_pos rfl, observations, observations, hobserve s t k hsees]
      exact congrArg _ (ih hmeet (hsecond s t k hsees))

end Unwinding
end DatafusionPostgres.Library
