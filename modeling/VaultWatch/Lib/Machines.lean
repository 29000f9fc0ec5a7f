import VaultWatch.Lib.Run

/-! Two machines given the same inputs. `outputs_eq_iff` is the whole argument for
comparing implementations of one interface: a relation of their states that a step
under a condition keeps, and that a step without it contradicts by its output. -/
namespace VaultWatch.Lib.Machines

open VaultWatch.Lib.Run

variable {σ τ ι ο : Type}

/-- The outputs of the steps, in order. -/
def outputs (step : ι → σ → ο × σ) : σ → List ι → List ο
  | _, [] => []
  | s, i :: is => (step i s).1 :: outputs step (step i s).2 is

/-- The machines answer alike exactly when the condition holds at each step of the
first. -/
theorem outputs_eq_iff {f : ι → σ → ο × σ} {g : ι → τ → ο × τ} {R : σ → τ → Prop}
    {P : σ → ι → Prop}
    (agree : ∀ s t i, R s t → P s i → (f i s).1 = (g i t).1 ∧ R (f i s).2 (g i t).2)
    (differ : ∀ s t i, R s t → ¬ P s i → (f i s).1 ≠ (g i t).1) {s : σ} {t : τ} (related : R s t)
    (is : List ι) :
    outputs f s is = outputs g t is ↔ Along (fun s i => (f i s).2) P s is := by
  induction is generalizing s t with
  | nil => simp [outputs, Along]
  | cons i is ih =>
    rw [outputs, outputs, List.cons.injEq, Along]
    by_cases holds : P s i
    · obtain ⟨same, next⟩ := agree s t i related holds
      simp [same, holds, ih next]
    · simp [differ s t i related holds, holds]

end VaultWatch.Lib.Machines
