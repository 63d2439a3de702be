/-! Runs of a state machine given by a step function, and invariants of the runs
whose every step meets a condition on the state before it. -/
namespace DatafusionPostgres.Library

section Run
variable {σ ι : Type} (step : σ → ι → σ)

def run (s : σ) (is : List ι) : σ := is.foldl step s

/-- Each step of the run meets `cond` in the state it starts from. -/
def StepsMeet (cond : σ → ι → Prop) : σ → List ι → Prop
  | _, [] => True
  | s, i :: is => cond s i ∧ StepsMeet cond (step s i) is

@[simp] theorem run_nil (s : σ) : run step s [] = s := rfl

@[simp] theorem run_cons (s : σ) (i : ι) (is : List ι) :
    run step s (i :: is) = run step (step s i) is := rfl

theorem run_append (s : σ) (is js : List ι) :
    run step s (is ++ js) = run step (run step s is) js := List.foldl_append ..

variable {step}

theorem run_invariant_of {cond : σ → ι → Prop} {inv : σ → Prop}
    (hstep : ∀ s i, cond s i → inv s → inv (step s i)) {s : σ} {is : List ι}
    (hmeet : StepsMeet step cond s is) (h0 : inv s) : inv (run step s is) := by
  induction is generalizing s with
  | nil => exact h0
  | cons i is ih => exact ih hmeet.2 (hstep s i hmeet.1 h0)

theorem run_invariant {inv : σ → Prop} (hstep : ∀ s i, inv s → inv (step s i))
    {s : σ} (h0 : inv s) (is : List ι) : inv (run step s is) := by
  induction is generalizing s with
  | nil => exact h0
  | cons i is ih => exact ih (hstep s i h0)

/-- The steps of a prefix meet the condition when all steps do. -/
theorem StepsMeet.of_append {cond : σ → ι → Prop} {s : σ} {is js : List ι}
    (h : StepsMeet step cond s (is ++ js)) : StepsMeet step cond s is := by
  induction is generalizing s with
  | nil => trivial
  | cons i is ih => exact ⟨h.1, ih h.2⟩

theorem StepsMeet.and {cond cond' : σ → ι → Prop} {s : σ} {is : List ι}
    (h : StepsMeet step cond s is) (h' : StepsMeet step cond' s is) :
    StepsMeet step (fun s i => cond s i ∧ cond' s i) s is := by
  induction is generalizing s with
  | nil => trivial
  | cons i is ih => exact ⟨⟨h.1, h'.1⟩, ih h.2 h'.2⟩

/-- A condition on the steps alone. -/
theorem StepsMeet.of_forall {cond : ι → Prop} {is : List ι} (h : ∀ i ∈ is, cond i) (s : σ) :
    StepsMeet step (fun _ i => cond i) s is := by
  induction is generalizing s with
  | nil => trivial
  | cons i is ih =>
    exact ⟨h i List.mem_cons_self, ih (fun j hj => h j (List.mem_cons_of_mem _ hj)) _⟩

end Run
end DatafusionPostgres.Library
